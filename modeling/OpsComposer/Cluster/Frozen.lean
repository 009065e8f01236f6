import OpsComposer.Cluster.Lifecycle

/-!
# The results of an ended run

A run that has ended should never change again: not its row, not the rows of
its targets, not its events.  Every write of the repository keeps to this except
two.  `finish_target` selects its row by the key alone, and `append_event` looks
at the run only for its counter; neither asks for the status of the run or for
its worker.  A worker process that stalls past its lease, while a recovery
interrupts its run, still reaches both when it wakes up.

* `StaleWrite` — one of these two writes, for a run that has ended;
* `frozen_of_step` — every other step keeps the results of an ended run;
* `frozen_without_staleWrites` — in a deployment without stale writes they are
  kept for ever;
* `frozen_fails` — the run that shows the defect.
-/

set_option autoImplicit false

namespace OpsComposer.Cluster

open Domain Foundations Repositories Services

/-! ## How the event log changes -/

/-- The run to which a worker process appends an event: the one that it executes. -/
def Action.appendsTo? (world : World) : Action → Option Uuid
  | .worker processId (.appendEvent _ _) =>
      (world.workers.lookup processId).bind fun worker => worker.stage.run?
  | _ => none

/-- No step takes an event away or rewrites it. -/
theorem event_kept_of_effect {world : World} {action : Action} {store : Store}
    (effect : Effect world action store) {id : Uuid} {event : RunEvent}
    (found : world.store.events.lookup id = some event) : store.events.lookup id = some event := by
  -- an inserted event has a fresh id
  have inserted : ∀ row : RunEvent, world.store.events.lookup row.runEventId = none →
      (world.store.events.put row).lookup id = some event := by
    intro row free
    rw [Table.lookup_put_of_ne, found]
    rintro rfl
    exact Table.not_free free found
  cases effect with
  | quiet same => rw [same.events, found]
  | create creates =>
      rw [creates.events]
      exact inserted _ creates.eventFree
  | cancel cancels =>
      rw [cancels.events]
      exact inserted _ cancels.eventFree
  | recover _ _ same | renew _ _ same | start _ _ same | report _ _ _ _ _ same | closeShell same
  | dropShells _ same =>
      rw [same.events]
      exact found
  | claim _ claims => rw [claims.events, found]
  | append _ _ _ appends =>
      rw [appends.events]
      exact inserted _ appends.eventFree
  | finish _ _ _ _ finishes =>
      rw [finishes.events]
      exact inserted _ finishes.eventFree
  | openShell opens => rw [opens.events, found]
  | activateShell activates => rw [activates.events, found]
  | refreshShell => exact found

/-- A step logs an event only for a run that it creates, for a run that has not
ended, or because a worker process appends it. -/
theorem newEvent_of_effect {world : World} {action : Action} {store : Store}
    (effect : Effect world action store) {id : Uuid} {event : RunEvent}
    (found : store.events.lookup id = some event) :
    world.store.events.lookup id = some event ∨
      (∀ run, world.store.runs.lookup event.runId = some run → run.status.terminal = false) ∨
      action.appendsTo? world = some event.runId := by
  cases effect with
  | quiet same | recover _ _ same | renew _ _ same | start _ _ same | report _ _ _ _ _ same
  | closeShell same | dropShells _ same => exact .inl (same.events ▸ found)
  | create creates =>
      rw [creates.events, Table.lookup_put] at found
      split at found
      · obtain rfl := Option.some.inj found
        exact .inr (.inl fun run present => (Table.not_free creates.runFree present).elim)
      · exact .inl found
  | cancel cancels =>
      rw [cancels.events, Table.lookup_put] at found
      split at found
      · obtain rfl := Option.some.inj found
        refine .inr (.inl fun run present => ?_)
        obtain rfl := Option.some.inj (cancels.found.symm.trans present)
        simpa [RunStatus.cancelable_eq_not_terminal] using cancels.cancelable
      · exact .inl found
  | claim _ claims => exact .inl (claims.events ▸ found)
  | @append worker _ _ _ _ _ _ present executing same appends =>
      subst same
      rw [appends.events, Table.lookup_put] at found
      split at found
      · obtain rfl := Option.some.inj found
        refine .inr (.inr ?_)
        rw [Action.appendsTo?, present]
        exact executing
      · exact .inl found
  | finish _ _ _ _ finishes =>
      rw [finishes.events, Table.lookup_put] at found
      split at found
      · obtain rfl := Option.some.inj found
        refine .inr (.inl fun run present => ?_)
        obtain rfl := Option.some.inj (finishes.found.symm.trans present)
        exact RunStatus.not_terminal_of_active finishes.owned.2
      · exact .inl found
  | openShell opens => exact .inl (opens.events ▸ found)
  | activateShell activates => exact .inl (activates.events ▸ found)
  | refreshShell => exact .inl found

/-! ## Results that do not change -/

/-- Two states have the same results of a run: the result columns of its row, the
rows of its targets and its events. -/
structure SameResults (id : Uuid) (world world' : World) : Prop where
  run : ∀ run, world.store.runs.lookup id = some run →
    ∃ run', world'.store.runs.lookup id = some run' ∧ run'.status = run.status ∧
      run'.returnCode = run.returnCode ∧ run'.summary = run.summary ∧
      run'.finishedAt = run.finishedAt
  targets : ∀ targetId target, target.runId = id →
    (world'.store.targets.lookup targetId = some target ↔
      world.store.targets.lookup targetId = some target)
  events : ∀ eventId event, event.runId = id →
    (world'.store.events.lookup eventId = some event ↔
      world.store.events.lookup eventId = some event)

namespace SameResults

theorem refl (id : Uuid) (world : World) : SameResults id world world where
  run run found := ⟨run, found, rfl, rfl, rfl, rfl⟩
  targets _ _ _ := Iff.rfl
  events _ _ _ := Iff.rfl

theorem trans {id : Uuid} {first second third : World} (before : SameResults id first second)
    (after : SameResults id second third) : SameResults id first third where
  run run found := by
    obtain ⟨run', found', status', code', summary', end'⟩ := before.run run found
    obtain ⟨run'', found'', status'', code'', summary'', end''⟩ := after.run run' found'
    exact ⟨run'', found'', status''.trans status', code''.trans code',
      summary''.trans summary', end''.trans end'⟩
  targets targetId target ofRun :=
    (after.targets targetId target ofRun).trans (before.targets targetId target ofRun)
  events eventId event ofRun :=
    (after.events eventId event ofRun).trans (before.events eventId event ofRun)

/-- An ended run stays ended. -/
theorem ended {id : Uuid} {world world' : World} (same : SameResults id world world')
    (ended : Ended id world) : Ended id world' := by
  obtain ⟨run, found, terminal⟩ := ended
  obtain ⟨run', found', status, _⟩ := same.run run found
  exact ⟨run', found', by rw [status, terminal]⟩

end SameResults

/-! ## Stale writes -/

/-- A worker process appends an event to an ended run, or reports a target of one. -/
abbrev StaleWrite (world : World) (action : Action) : Prop :=
  (∃ runId ∈ action.appendsTo? world, Ended runId world) ∨
    ∃ targetId ∈ action.reports?, ∃ target ∈ world.store.targets.lookup targetId,
      Ended target.runId world

/-- **Every other step keeps the results of an ended run.** -/
theorem frozen_of_step {world world' : World} {action : Action} (inv : LifecycleInv world)
    (step : world.step action = some world') (fresh : ¬ StaleWrite world action) {id : Uuid}
    (ended : Ended id world) : SameResults id world world' := by
  have effect := effect_of_step step
  obtain ⟨run, found, terminal⟩ := ended
  obtain ⟨run', found', change⟩ := runChange_of_effect effect found
  have frozen := change.frozen terminal
  -- a row of this run that was there before is there after, unchanged
  have keptTarget : ∀ targetId target, world.store.targets.lookup targetId = some target →
      target.runId = id → world'.store.targets.lookup targetId = some target := by
    rintro targetId target before rfl
    obtain ⟨target', after, targetChange⟩ :=
      targetChange_of_effect inv.rows inv.claimed effect before found found'
    have closed := inv.rows.closed targetId target run before found terminal
    cases targetChange with
    | kept _ => exact after
    | started _ pending _ _ =>
        rw [pending] at closed
        cases closed
    | closed _ opened _ _ =>
        rw [opened] at closed
        cases closed
    | reported _ reports _ _ =>
        exact absurd (.inr ⟨targetId, reports, target, before, run, found, terminal⟩) fresh
  refine ⟨?_, ?_, ?_⟩
  · intro row present
    obtain rfl := Option.some.inj (found.symm.trans present)
    exact ⟨run', found', frozen⟩
  · intro targetId target ofRun
    refine ⟨?_, fun before => keptTarget targetId target before ofRun⟩
    intro after
    cases before : world.store.targets.lookup targetId with
    | none =>
        -- an added row belongs to a run in the queue
        obtain ⟨_, row, present, queued⟩ := newTarget_of_effect effect after before
        rw [ofRun] at present
        obtain rfl := Option.some.inj (found'.symm.trans present)
        rw [← frozen.1, queued] at terminal
        cases terminal
    | some old =>
        obtain ⟨row, present⟩ := inv.rows.ofRun targetId old before
        obtain ⟨row', present', _⟩ := runChange_of_effect effect present
        obtain ⟨target', after', targetChange⟩ :=
          targetChange_of_effect inv.rows inv.claimed effect before present present'
        obtain rfl := Option.some.inj (after'.symm.trans after)
        have oldOfRun : old.runId = id := targetChange.ids.1.symm.trans ofRun
        exact (keptTarget targetId old before oldOfRun).symm.trans after
  · intro eventId event ofRun
    refine ⟨?_, event_kept_of_effect effect⟩
    intro after
    rcases newEvent_of_effect effect after with before | live | appended
    · exact before
    · rw [ofRun] at live
      rw [live run found] at terminal
      cases terminal
    · rw [ofRun] at appended
      exact absurd (.inl ⟨id, appended, run, found, terminal⟩) fresh

/-- **Without stale writes the results of an ended run never change.** -/
theorem frozen_without_staleWrites {world world' : World} {id : Uuid}
    (reached : (deployment.restrict fun world action => ¬ StaleWrite world action).Reachable world)
    (later : (deployment.restrict fun world action => ¬ StaleWrite world action).Leads world world')
    (ended : Ended id world) : SameResults id world world' := by
  have lifecycleInv :=
    lifecycleInv_inductive.restrict fun world action => ¬ StaleWrite world action
  have start := lifecycleInv.of_reachable reached
  refine System.Leads.preserves lifecycleInv ?_ start (SameResults.refl id world) later
  intro middle action next inv same step
  obtain ⟨fresh, step⟩ := System.restrict_step.mp step
  exact same.trans (frozen_of_step inv step fresh (same.ended ended))

/-- A run ends as its worker reports. -/
def finishFirst : List Action :=
  firstClaim ++ [.worker 1 .markRunning, .worker 1 (.finish 2 { status := .succeeded })]

/-- Time passes, another worker recovers, claims the next run and logs an event. -/
def carryOn : List Action :=
  [.tick 31000000, .createRun { pingDraft 2 3 with idempotencyKey := "again" } []] ++
    claimOnce 2 "b" ++ [.worker 2 (.appendEvent 4 { eventType := "log" })]

theorem frozen_carryOn : ∃ world world', deployment.exec .start finishFirst = some world ∧
    deployment.exec world carryOn = some world' ∧ SameResults 1 world world' := by
  have ran : (deployment.exec .start finishFirst).bind (fun world =>
      (deployment.exec world carryOn).bind fun _ =>
        (world.store.runs.lookup 1).map Run.status) = some .succeeded := by decide
  obtain ⟨world, before, ran⟩ := Option.bind_eq_some_iff.mp ran
  obtain ⟨world', after, ran⟩ := Option.bind_eq_some_iff.mp ran
  obtain ⟨run, found, succeeded⟩ := Option.map_eq_some_iff.mp ran
  have along : deployment.Along (fun world action => ¬ StaleWrite world action) .start
      finishFirst := by decide
  have alongAfter : ∀ world ∈ deployment.exec .start finishFirst,
      deployment.Along (fun world action => ¬ StaleWrite world action) world carryOn := by decide
  have first := System.leads_restrict_of_exec before along
  have second := System.leads_restrict_of_exec after (alongAfter world before)
  exact ⟨world, world', before, after, frozen_without_staleWrites ⟨.start, rfl, first⟩ second
    ⟨run, found, by rw [succeeded]; rfl⟩⟩

/-! ## The defect -/

/-- A worker stalls past its lease, and another one starts and recovers. -/
def interruptFirst : List Action :=
  firstClaim ++ [.tick 31000000, .spawn 2 "b" .default, .worker 2 .recoverStale]

/-- The stalled worker wakes up and reports its target as if it owned the run. -/
def wakeUp : List Action :=
  [.worker 1 (.appendEvent 2 { eventType := "log" }),
    .worker 1 (.finishTarget 1 1 { status := .succeeded })]

/-- **A stale worker rewrites the target of an interrupted run.** -/
theorem frozen_fails : ¬ ∀ world world' id, deployment.Reachable world →
    deployment.Leads world world' → Ended id world → SameResults id world world' := by
  intro frozen
  have ran : (deployment.exec .start interruptFirst).bind (fun world =>
      (deployment.exec world wakeUp).bind fun world' =>
        (world.store.runs.lookup 1).bind fun run =>
          (world.store.targets.lookup 1).bind fun target =>
            (world'.store.targets.lookup 1).map fun target' =>
              (run.status, target.runId, target.status, target'.status)) =
      some (.interrupted, 1, .interrupted, .succeeded) := by decide
  obtain ⟨world, before, ran⟩ := Option.bind_eq_some_iff.mp ran
  obtain ⟨world', after, ran⟩ := Option.bind_eq_some_iff.mp ran
  obtain ⟨run, found, ran⟩ := Option.bind_eq_some_iff.mp ran
  obtain ⟨target, stored, ran⟩ := Option.bind_eq_some_iff.mp ran
  obtain ⟨target', stored', ran⟩ := Option.map_eq_some_iff.mp ran
  simp only [Prod.mk.injEq] at ran
  obtain ⟨interrupted, ofRun, status, status'⟩ := ran
  have ended : Ended 1 world := ⟨run, found, by rw [interrupted]; rfl⟩
  have same := frozen world world' 1 (reachable_of_exec before) (System.leads_of_exec after) ended
  have kept := (same.targets 1 target ofRun).mpr stored
  obtain rfl := Option.some.inj (kept.symm.trans stored')
  rw [status] at status'
  cases status'

end OpsComposer.Cluster
