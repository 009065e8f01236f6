import OpsComposer.Execution.Aggregation
import OpsComposer.Foundations.Transition

/-!
# The loop over the events of a run

The runner works in a thread of its own.  Every event it reports is posted with
`loop.call_soon_threadsafe(event_queue.put_nowait, event)`, and when it has returned
the completion of the execution task is posted in the same way.  The event loop runs
what has been posted in its order, whenever the loop of `execute_run` is suspended.
That loop reads the queue with a timeout, folds and appends one event at a time, and
ends when the task is done and the queue is empty at once.

A state keeps, beside what the program has, the events that the thread has reported
and those that have been folded.
-/

set_option autoImplicit false

namespace OpsComposer.Execution

open Domain Foundations Services Services.Worker

/-- What has been posted to the event loop. -/
inductive Callback where
  | put (event : RunnerEvent)
  | completion

/-- Where the loop of `execute_run` stands. -/
inductive Stage where
  /-- Before the test of the loop. -/
  | testing
  /-- `await asyncio.wait_for(event_queue.get(), timeout=0.25)`. -/
  | waiting
  /-- `await coordinator.append_event(…)`. -/
  | appending (draft : WorkerCoordinator.EventDraft)
  | ended
  | raised
  | aggregated (aggregation : Aggregation)

/-- The runner, the event loop, the queue and the reader of the queue. -/
structure LoopState where
  pending : List Callback := []
  /-- The runner has returned. -/
  returned : Bool := false
  /-- `execution.done()`. -/
  done : Bool := false
  queue : List RunnerEvent := []
  stage : Stage := .testing
  accumulators : List TargetAccumulator
  /-- The events in the log of the run. -/
  appended : List WorkerCoordinator.EventDraft := []
  posted : List RunnerEvent := []
  folded : List RunnerEvent := []

/-- What one of them does next. -/
inductive LoopAction where
  /-- The runner calls `event_handler`. -/
  | post (event : RunnerEvent)
  /-- The runner returns. -/
  | complete
  /-- The event loop runs what has been posted first. -/
  | callback
  | enter
  | leave
  | timeout
  | take
  | append
  /-- The monitor has failed, or something in the body. -/
  | raise
  | aggregate (cancel : Bool) (rc : Option Int) (runnerStatus : Text)

/-- One step of the runner, of the event loop or of the loop of `execute_run`. -/
def LoopState.step (limit : Nat) (state : LoopState) : LoopAction → Option LoopState
  | .post event =>
      if state.returned then none
      else some { state with
        pending := state.pending ++ [.put event]
        posted := state.posted ++ [event] }
  | .complete =>
      if state.returned then none
      else some { state with pending := state.pending ++ [.completion], returned := true }
  | .callback =>
      match state.pending with
      | [] => none
      | .put event :: rest =>
          some { state with pending := rest, queue := state.queue ++ [event] }
      | .completion :: rest => some { state with pending := rest, done := true }
  | .enter =>
      match state.stage with
      | .testing =>
          if state.done = false ∨ state.queue ≠ [] then some { state with stage := .waiting }
          else none
      | _ => none
  | .leave =>
      match state.stage with
      | .testing =>
          if state.done = false ∨ state.queue ≠ [] then none
          else some { state with stage := .ended }
      | _ => none
  | .timeout =>
      match state.stage with
      | .waiting => some { state with stage := .testing }
      | _ => none
  | .take =>
      match state.stage, state.queue with
      | .waiting, event :: rest =>
          some { state with
            queue := rest
            accumulators := foldEvent limit state.accumulators event
            stage := .appending (draftOf state.accumulators event)
            folded := state.folded ++ [event] }
      | _, _ => none
  | .append =>
      match state.stage with
      | .appending draft =>
          some { state with appended := state.appended ++ [draft], stage := .testing }
      | _ => none
  | .raise =>
      match state.stage with
      | .testing | .waiting | .appending _ => some { state with stage := .raised }
      | _ => none
  | .aggregate cancel rc runnerStatus =>
      match state.stage with
      | .ended => some { state with
          stage := .aggregated (Worker.aggregate cancel rc runnerStatus state.accumulators) }
      | _ => none

/-- The loop of a run against some targets. -/
def eventLoop (limit : Nat) (targets : List RunTarget) : System LoopState LoopAction where
  init state := state = { accumulators := accumulatorsOf targets }
  step := LoopState.step limit

/-- What one step does, by the action. -/
inductive Steps (limit : Nat) (state : LoopState) : LoopState → Prop where
  | post (running : state.returned = false) (event : RunnerEvent) :
      Steps limit state { state with
        pending := state.pending ++ [.put event], posted := state.posted ++ [event] }
  | complete (running : state.returned = false) :
      Steps limit state { state with pending := state.pending ++ [.completion], returned := true }
  | put {event : RunnerEvent} {rest : List Callback} (first : state.pending = .put event :: rest) :
      Steps limit state { state with pending := rest, queue := state.queue ++ [event] }
  | done {rest : List Callback} (first : state.pending = .completion :: rest) :
      Steps limit state { state with pending := rest, done := true }
  | enter (testing : state.stage = .testing) (more : state.done = false ∨ state.queue ≠ []) :
      Steps limit state { state with stage := .waiting }
  | leave (testing : state.stage = .testing) (done : state.done = true) (empty : state.queue = []) :
      Steps limit state { state with stage := .ended }
  | timeout (waiting : state.stage = .waiting) : Steps limit state { state with stage := .testing }
  | take (waiting : state.stage = .waiting) {event : RunnerEvent} {rest : List RunnerEvent}
      (first : state.queue = event :: rest) :
      Steps limit state { state with
        queue := rest
        accumulators := foldEvent limit state.accumulators event
        stage := .appending (draftOf state.accumulators event)
        folded := state.folded ++ [event] }
  | append {draft : WorkerCoordinator.EventDraft} (appending : state.stage = .appending draft) :
      Steps limit state { state with appended := state.appended ++ [draft], stage := .testing }
  | raise : Steps limit state { state with stage := .raised }
  | aggregate (ended : state.stage = .ended) (cancel : Bool) (rc : Option Int)
      (runnerStatus : Text) : Steps limit state { state with
        stage := .aggregated (Worker.aggregate cancel rc runnerStatus state.accumulators) }

theorem steps_of_step {limit : Nat} {state next : LoopState} {action : LoopAction}
    (step : state.step limit action = some next) : Steps limit state next := by
  cases action with
  | post event =>
      simp only [LoopState.step] at step
      split at step
      · cases step
      · rename_i running
        exact Option.some.inj step ▸ .post (Bool.eq_false_iff.mpr running) event
  | complete =>
      simp only [LoopState.step] at step
      split at step
      · cases step
      · rename_i running
        exact Option.some.inj step ▸ .complete (Bool.eq_false_iff.mpr running)
  | callback =>
      simp only [LoopState.step] at step
      split at step
      · cases step
      · rename_i first
        exact Option.some.inj step ▸ .put first
      · rename_i first
        exact Option.some.inj step ▸ .done first
  | enter =>
      simp only [LoopState.step] at step
      split at step
      · rename_i testing
        split at step
        · rename_i more
          exact Option.some.inj step ▸ .enter testing more
        · cases step
      · cases step
  | leave =>
      simp only [LoopState.step] at step
      split at step
      · rename_i testing
        split at step
        · cases step
        · rename_i more
          obtain ⟨done, empty⟩ := not_or.mp more
          exact Option.some.inj step ▸
            .leave testing (Bool.eq_true_of_not_eq_false done) (not_not.mp empty)
      · cases step
  | timeout =>
      simp only [LoopState.step] at step
      split at step
      · rename_i waiting
        exact Option.some.inj step ▸ .timeout waiting
      · cases step
  | take =>
      simp only [LoopState.step] at step
      split at step
      · rename_i waiting first
        exact Option.some.inj step ▸ .take waiting first
      · cases step
  | append =>
      simp only [LoopState.step] at step
      split at step
      · rename_i appending
        exact Option.some.inj step ▸ .append appending
      · cases step
  | raise =>
      simp only [LoopState.step] at step
      split at step
      · exact Option.some.inj step ▸ .raise
      · exact Option.some.inj step ▸ .raise
      · exact Option.some.inj step ▸ .raise
      · cases step
  | aggregate cancel rc runnerStatus =>
      simp only [LoopState.step] at step
      split at step
      · rename_i ended
        exact Option.some.inj step ▸ .aggregate ended cancel rc runnerStatus
      · cases step

/-! ## What is kept -/

/-- The events among what has been posted. -/
def putsOf (pending : List Callback) : List RunnerEvent :=
  pending.filterMap fun
    | .put event => some event
    | .completion => none

/-- The draft that is about to be appended. -/
def Stage.inHand : Stage → List WorkerCoordinator.EventDraft
  | .appending draft => [draft]
  | _ => []

/-- The events as they are appended. -/
def draftsOf (targets : List RunTarget) (events : List RunnerEvent) :
    List WorkerCoordinator.EventDraft :=
  events.map (draftOf (accumulatorsOf targets))

/-- Every event is in one place, in the order in which they were reported. -/
structure Conserved (limit : Nat) (targets : List RunTarget) (state : LoopState) : Prop where
  order : state.posted = state.folded ++ (state.queue ++ putsOf state.pending)
  accumulators : state.accumulators =
    state.folded.foldl (foldEvent limit) (accumulatorsOf targets)
  appended : state.stage = .raised ∨
    draftsOf targets state.folded = state.appended ++ state.stage.inHand

/-- The completion is posted once, and after all events. -/
structure CompletionLast (state : LoopState) : Prop where
  before : state.returned = false → state.done = false ∧ .completion ∉ state.pending
  between : state.returned = true → state.done = false →
    ∃ puts, state.pending = puts ++ [.completion] ∧ .completion ∉ puts
  after : state.done = true → state.returned = true ∧ state.pending = []

/-- What follows the end of the loop. -/
structure EndedWell (limit : Nat) (targets : List RunTarget) (state : LoopState) : Prop where
  ended : state.stage = .ended → state.done = true ∧ state.queue = []
  aggregated : ∀ aggregation, state.stage = .aggregated aggregation →
    state.done = true ∧ state.queue = [] ∧ ∃ cancel rc runnerStatus,
      aggregation = Worker.aggregate cancel rc runnerStatus state.accumulators

/-- An event is appended under its target, whatever has been folded before. -/
theorem draftOf_foldEvent (limit : Nat) (accumulators : List TargetAccumulator)
    (before event : RunnerEvent) :
    draftOf (foldEvent limit accumulators before) event = draftOf accumulators event := by
  have same : ∀ accumulator : TargetAccumulator,
      (if Concerns before accumulator.target then accumulate limit before accumulator
        else accumulator).target = accumulator.target := by
    intro accumulator
    split
    · exact accumulate_target limit before accumulator
    · rfl
  simp only [draftOf, foldEvent, List.find?_map, Option.map_map, Function.comp_def, same]

theorem draftOf_foldl (limit : Nat) (events : List RunnerEvent)
    (accumulators : List TargetAccumulator) (event : RunnerEvent) :
    draftOf (events.foldl (foldEvent limit) accumulators) event = draftOf accumulators event := by
  induction events generalizing accumulators with
  | nil => rfl
  | cons before events ih => rw [List.foldl_cons, ih, draftOf_foldEvent]

/-! ## The invariants -/

variable {limit : Nat} {targets : List RunTarget}

theorem conserved_inductive : (eventLoop limit targets).Inductive (Conserved limit targets) where
  initial := by
    rintro _ rfl
    exact ⟨rfl, rfl, .inr rfl⟩
  preserved := by
    intro state action next holds step
    have order := holds.order
    have appended := holds.appended
    cases steps_of_step step with
    | post running event => exact ⟨by simp [order, putsOf], holds.accumulators, appended⟩
    | complete running => exact ⟨by simpa [putsOf] using order, holds.accumulators, appended⟩
    | put first | done first => exact ⟨by simp [order, first, putsOf], holds.accumulators, appended⟩
    | enter testing more | leave testing done empty =>
        exact ⟨order, holds.accumulators, by simpa [testing, Stage.inHand] using appended⟩
    | timeout waiting =>
        exact ⟨order, holds.accumulators, by simpa [waiting, Stage.inHand] using appended⟩
    | take waiting first =>
        refine ⟨by simp [order, first], by simp [holds.accumulators], .inr ?_⟩
        simp only [waiting, Stage.inHand, reduceCtorEq, false_or, List.append_nil] at appended
        simp only [draftsOf, List.map_append] at appended ⊢
        rw [appended, holds.accumulators, draftOf_foldl]
        rfl
    | append appending =>
        refine ⟨order, holds.accumulators, .inr ?_⟩
        simpa [appending, Stage.inHand] using appended
    | raise => exact ⟨order, holds.accumulators, .inl rfl⟩
    | aggregate ended cancel rc runnerStatus =>
        exact ⟨order, holds.accumulators, by simpa [ended, Stage.inHand] using appended⟩

theorem completionLast_inductive : (eventLoop limit targets).Inductive CompletionLast where
  initial := by
    rintro _ rfl
    exact ⟨fun _ => ⟨rfl, List.not_mem_nil⟩, nofun, nofun⟩
  preserved := by
    intro state action next holds step
    cases steps_of_step step with
    | post running event =>
        obtain ⟨undone, none⟩ := holds.before running
        refine ⟨fun _ => ⟨undone, by simpa using none⟩, fun returned => ?_, fun done => ?_⟩
        · cases running.symm.trans returned
        · cases undone.symm.trans done
    | complete running =>
        obtain ⟨undone, none⟩ := holds.before running
        refine ⟨nofun, fun _ _ => ⟨state.pending, rfl, none⟩, fun done => ?_⟩
        cases undone.symm.trans done
    | put first =>
        refine ⟨fun running => ?_, fun returned undone => ?_, fun done => ?_⟩
        · obtain ⟨undone, none⟩ := holds.before running
          rw [first] at none
          exact ⟨undone, fun member => none (List.mem_cons_of_mem _ member)⟩
        · obtain ⟨puts, last, none⟩ := holds.between returned undone
          rw [first] at last
          cases puts with
          | nil => cases (List.cons.inj last).1
          | cons put puts =>
              obtain ⟨-, rest⟩ := List.cons.inj last
              exact ⟨puts, rest, fun member => none (List.mem_cons_of_mem _ member)⟩
        · cases first.symm.trans (holds.after done).2
    | done first =>
        have returned : state.returned = true := by
          by_contra running
          refine (holds.before (Bool.eq_false_iff.mpr running)).2 ?_
          rw [first]
          exact List.mem_cons_self
        have undone : state.done = false := by
          by_contra done
          cases first.symm.trans (holds.after (Bool.eq_true_of_not_eq_false done)).2
        obtain ⟨puts, last, none⟩ := holds.between returned undone
        refine ⟨fun running => ?_, nofun, fun _ => ⟨returned, ?_⟩⟩
        · cases running.symm.trans returned
        · rw [first] at last
          cases puts with
          | nil => exact (List.cons.inj last).2
          | cons put puts =>
              obtain ⟨rfl, -⟩ := List.cons.inj last
              exact absurd List.mem_cons_self none
    | enter | leave | timeout | take | append | raise | aggregate =>
        exact ⟨holds.before, holds.between, holds.after⟩

/-- After its end the loop has an empty queue, and nothing is posted any more. -/
theorem ended_inductive : (eventLoop limit targets).Inductive fun state =>
    CompletionLast state ∧ EndedWell limit targets state := by
  refine completionLast_inductive.strengthen ?_ ?_
  · rintro _ rfl
    exact ⟨nofun, nofun⟩
  · intro state action next last holds step
    cases steps_of_step step with
    | post running event | complete running => exact ⟨holds.ended, holds.aggregated⟩
    | put first =>
        have undone : ¬ state.done = true := by
          intro done
          cases first.symm.trans (last.after done).2
        exact ⟨fun ended => absurd (holds.ended ended).1 undone,
          fun aggregation is => absurd (holds.aggregated aggregation is).1 undone⟩
    | done first =>
        refine ⟨fun ended => ⟨rfl, (holds.ended ended).2⟩, fun aggregation is => ?_⟩
        obtain ⟨-, empty, values⟩ := holds.aggregated aggregation is
        exact ⟨rfl, empty, values⟩
    | enter | timeout | take | append | raise => exact ⟨nofun, nofun⟩
    | leave testing done empty => exact ⟨fun _ => ⟨done, empty⟩, nofun⟩
    | aggregate ended cancel rc runnerStatus =>
        obtain ⟨done, empty⟩ := holds.ended ended
        refine ⟨nofun, fun aggregation same => ⟨done, empty, cancel, rc, runnerStatus, ?_⟩⟩
        exact (Stage.aggregated.inj same).symm

/-- The loop has ended without an exception. -/
def LoopState.Ended (state : LoopState) : Prop :=
  state.stage = .ended ∨ ∃ aggregation, state.stage = .aggregated aggregation

/-- **No event is lost.**  When the loop has ended, the runner has returned, every
event that it reported has been folded and appended once and in order, and the
results are those of all its events. -/
theorem eventLoop_complete {state : LoopState}
    (reached : (eventLoop limit targets).Reachable state) (ended : state.Ended) :
    state.returned = true ∧ state.folded = state.posted ∧
      state.accumulators = state.posted.foldl (foldEvent limit) (accumulatorsOf targets) ∧
        state.appended = draftsOf targets state.posted ∧
          ∀ aggregation, state.stage = .aggregated aggregation → ∃ cancel rc runnerStatus,
            aggregation = executeRun limit targets state.posted cancel rc runnerStatus := by
  have conserved := conserved_inductive.of_reachable reached
  obtain ⟨last, well⟩ := ended_inductive.of_reachable reached
  obtain ⟨done, empty⟩ : state.done = true ∧ state.queue = [] := by
    rcases ended with ended | ⟨aggregation, is⟩
    · exact well.ended ended
    · exact ⟨(well.aggregated aggregation is).1, (well.aggregated aggregation is).2.1⟩
  obtain ⟨returned, nothing⟩ := last.after done
  have all : state.folded = state.posted := by
    rw [conserved.order, empty, nothing]
    simp [putsOf]
  have appended : state.appended = draftsOf targets state.folded := by
    rcases ended with ended | ⟨aggregation, is⟩
    · have kept := conserved.appended
      simp only [ended, reduceCtorEq, false_or, Stage.inHand, List.append_nil] at kept
      exact kept.symm
    · have kept := conserved.appended
      simp only [is, reduceCtorEq, false_or, Stage.inHand, List.append_nil] at kept
      exact kept.symm
  refine ⟨returned, all, all ▸ conserved.accumulators, all ▸ appended, fun aggregation is => ?_⟩
  obtain ⟨-, -, cancel, rc, runnerStatus, rfl⟩ := well.aggregated aggregation is
  exact ⟨cancel, rc, runnerStatus, by rw [executeRun, ← all, conserved.accumulators]⟩

/-- The loop reads the first of two events, times out, and reads the other after the
runner has returned. -/
theorem eventLoop_complete_late :
    ∃ state, (eventLoop 1024 [webTarget]).Reachable state ∧ state.Ended ∧
      state.folded = [{ event := "runner_on_failed", host := some "web" },
        { event := "runner_on_ok", host := some "web", changed := true }] ∧
      state.appended.length = 2 := by
  have run : (eventLoop 1024 [webTarget]).exec { accumulators := accumulatorsOf [webTarget] }
      [.enter, .post { event := "runner_on_failed", host := some "web" }, .callback, .take,
        .append, .enter, .timeout, .enter,
        .post { event := "runner_on_ok", host := some "web", changed := true }, .complete,
        .callback, .callback, .timeout, .enter, .take, .append, .leave] = some _ := rfl
  have reached := (System.Reachable.of_init rfl).leads (System.leads_of_exec run)
  obtain ⟨-, folded, -, appended, -⟩ := eventLoop_complete reached (.inl rfl)
  exact ⟨_, reached, .inl rfl, folded, by rw [appended]; rfl⟩

end OpsComposer.Execution
