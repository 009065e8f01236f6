import OpsComposer.Cluster.Attempts

/-!
# Secret inputs are consumed once and accounted for

What an attempt does in one step is one of the few things that `Progress`
lists.  From that follow the invariants of a fleet:

* `HistoryInv` — what has been consumed is gone for good, and a run whose secret
  inputs are consumed and that has not been `RUNNING` is in preparation or
  interrupted;
* `AttemptsInv` — the attempts are those of the executing processes, and the
  flags of an attempt say what has happened to its run.
-/

set_option autoImplicit false

namespace OpsComposer.Cluster

open Domain Foundations Repositories Services

/-! ## What an attempt does in one step -/

/-- The fleet once a consumption has committed whose answer is lost. -/
abbrev Fleet.afterLoss (fleet : Fleet) (attempt : Attempt) (world : World) : Fleet :=
  (fleet.consumes attempt false).onward world fleet.attempts

/-- The steps of an attempt: a turn without a write, a write, one of the two ends
of a consumption, and the two ways out. -/
inductive Progress (fleet : Fleet) (attempt : Attempt) : Fleet → Prop where
  | turned {irrecoverable : Bool} {point : Point}
      (known : attempt.secretInputsIrrecoverable = true → irrecoverable = true)
      (started : point.runStarted = true → attempt.point.runStarted = true) :
      Progress fleet attempt (fleet.reach
        { attempt with secretInputsIrrecoverable := irrecoverable } fleet.world point)
  | wrote {action : WorkerAction} {world : World} {point : Point}
      (step : fleet.write attempt action = some world) (goesOn : action.goesOn = true)
      (started : point.runStarted = true → attempt.point.runStarted = true ∨
        action = .markRunning) :
      Progress fleet attempt (fleet.reach attempt world point)
  | wroteTwice {action : WorkerAction} {world : World} {point : Point}
      (step : fleet.write attempt action = some world) (goesOn : action.goesOn = true)
      (started : point.runStarted = false) :
      Progress fleet attempt ((fleet.onward world fleet.attempts).reach attempt world point)
  | consumed {world : World} (step : fleet.write attempt .consumeSecrets = some world) :
      Progress fleet attempt ((fleet.consumes attempt true).reach
        { attempt with secretInputsIrrecoverable := true } world .preparing)
  | lost {world world' : World} (step : fleet.write attempt .consumeSecrets = some world)
      (fails : (fleet.afterLoss attempt world).write attempt .fail = some world') :
      Progress fleet attempt ((fleet.afterLoss attempt world).leave attempt world')
  | left {world : World} (step : fleet.write attempt .fail = some world) :
      Progress fleet attempt (fleet.leave attempt world)
  | finished {eventId : Uuid} {outcome : RunRepository.Outcome} {world : World}
      (step : fleet.write attempt (.finish eventId outcome) = some world)
      (honest : attempt.secretInputsIrrecoverable = true → attempt.point.runStarted = false →
        outcome.status = .interrupted) :
      Progress fleet attempt (fleet.leave attempt world)

theorem progress_of_raised {fleet fleet' : Fleet} {attempt : Attempt} {irrecoverable : Bool}
    {error : Raised} (known : attempt.secretInputsIrrecoverable = true → irrecoverable = true)
    (step : fleet.raised { attempt with secretInputsIrrecoverable := irrecoverable } error =
      some fleet') : Progress fleet attempt fleet' := by
  unfold Fleet.raised at step
  split at step
  case h_3 at_launching =>
    obtain rfl := Option.some.inj step
    exact .turned known (fun started => by cases started)
  case h_4 at_running =>
    obtain rfl := Option.some.inj step
    exact .turned known (fun _ => by rw [show attempt.point = .running from at_running]; rfl)
  case h_5 =>
    obtain ⟨world, failed, rfl⟩ := Option.map_eq_some_iff.mp step
    exact .left failed
  all_goals
    split at step
    · obtain rfl := Option.some.inj step
      exact .turned known (fun started => by cases started)
    · obtain ⟨world, failed, rfl⟩ := Option.map_eq_some_iff.mp step
      exact .left failed

section Advance

variable {decryptJson : Uuid → List UInt8 → Nat → Option Dict} {fleet fleet' : Fleet}
  {attempt : Attempt}

theorem progress_of_consumption {answered : Bool} (loading : attempt.point = .loading)
    (step : fleet.consumption attempt answered = some fleet') : Progress fleet attempt fleet' := by
  obtain ⟨world, written, step⟩ := Option.bind_eq_some_iff.mp step
  split at step
  · obtain rfl := Option.some.inj step
    exact .consumed written
  · simp only [Fleet.raised, loading, Raised.expected, Bool.false_eq_true, if_false] at step
    obtain ⟨world', failed, rfl⟩ := Option.map_eq_some_iff.mp step
    exact .lost written failed

theorem progress_of_consume {answered : Bool} (loading : attempt.point = .loading)
    (step : fleet.consume decryptJson attempt answered = some fleet') :
    Progress fleet attempt fleet' := by
  unfold Fleet.consume at step
  split at step
  · exact progress_of_raised id step
  · obtain rfl := Option.some.inj step
    exact .turned id (fun started => by cases started)
  · split at step
    · exact progress_of_consumption loading step
    · exact progress_of_raised (fun _ => rfl) step
    · exact progress_of_raised id step

theorem progress_of_advance {action : AttemptAction}
    (step : fleet.advance decryptJson attempt action = some fleet') :
    Progress fleet attempt fleet' := by
  unfold Fleet.advance at step
  split at step
  case h_1 => exact progress_of_raised id step
  case h_2 loading => exact progress_of_consume loading step
  case h_3 loading => exact progress_of_consume loading step
  case h_4 =>
    obtain rfl := Option.some.inj step
    exact .turned id (fun started => by cases started)
  case h_5 =>
    obtain ⟨world, written, rfl⟩ := Option.map_eq_some_iff.mp step
    exact .wrote written rfl fun _ => .inr rfl
  case h_6 launching =>
    obtain ⟨world, written, step⟩ := Option.bind_eq_some_iff.mp step
    simp only [Fleet.raised, launching] at step
    obtain rfl := Option.some.inj step
    exact .wroteTwice written rfl rfl
  case h_7 running =>
    obtain ⟨world, written, rfl⟩ := Option.map_eq_some_iff.mp step
    exact .wrote written rfl fun _ => .inl (by rw [running]; rfl)
  case h_8 running =>
    obtain ⟨world, written, rfl⟩ := Option.map_eq_some_iff.mp step
    exact .wrote written rfl fun _ => .inl (by rw [running]; rfl)
  case h_9 running =>
    obtain rfl := Option.some.inj step
    exact .turned id fun _ => by rw [running]; rfl
  case h_10 reporting =>
    obtain ⟨world, written, rfl⟩ := Option.map_eq_some_iff.mp step
    exact .wrote written rfl fun _ => .inl (by rw [reporting]; rfl)
  case h_11 reporting =>
    obtain ⟨world, written, rfl⟩ := Option.map_eq_some_iff.mp step
    exact .finished written fun _ notStarted => by rw [reporting] at notStarted; cases notStarted
  case h_12 =>
    obtain ⟨world, written, rfl⟩ := Option.map_eq_some_iff.mp step
    exact .wrote written rfl fun started => by cases started
  case h_13 =>
    obtain ⟨world, written, rfl⟩ := Option.map_eq_some_iff.mp step
    exact .finished written fun irrecoverable _ => by rw [irrecoverable]; rfl
  case h_14 runStarted _ failing =>
    obtain ⟨world, written, rfl⟩ := Option.map_eq_some_iff.mp step
    exact .wrote written rfl fun started => .inl (by rw [failing]; exact started)
  case h_15 runStarted _ _ failed =>
    obtain ⟨world, written, rfl⟩ := Option.map_eq_some_iff.mp step
    refine .finished written fun irrecoverable notStarted => ?_
    rw [failed] at notStarted
    rw [irrecoverable, show runStarted = false from notStarted]
    rfl
  case h_16 => cases step

end Advance

variable {action : Action} {attempt : Attempt} {fleet fleet' : Fleet}
  {attempts : Table Attempt.processId} {id : Uuid} {world : World}

theorem leads_of_write {action : WorkerAction}
    (step : fleet.write attempt action = some world) : deployment.Leads fleet.world world := by
  have moved : deployment.step fleet.world (.worker attempt.processId action) = some world := step
  exact (System.Leads.refl _).tail moved

theorem Progress.leads
    (progress : Progress fleet attempt fleet') : deployment.Leads fleet.world fleet'.world := by
  cases progress with
  | turned _ _ => exact .refl _
  | wrote step _ _ | wroteTwice step _ _ | consumed step | left step | finished step _ =>
      exact leads_of_write step
  | lost step fails => exact (leads_of_write step).trans (leads_of_write fails)

/-! ## What the history says -/

/-- What the histories of a fleet say about its runs. -/
structure HistoryInv (fleet : Fleet) : Prop where
  lifecycle : LifecycleInv fleet.world
  sole : SoleExecutors fleet.world
  executed : ExecutedOk fleet.world
  running : ∀ id run, fleet.world.store.runs.lookup id = some run → run.status = .running →
    id ∈ fleet.launched
  spent : ∀ id ∈ fleet.consumed, Spent id fleet.world
  nodup : fleet.consumed.Nodup
  returned : fleet.returned.Sublist fleet.consumed
  honest : ∀ id ∈ fleet.consumed, id ∉ fleet.launched → ∀ run,
    fleet.world.store.runs.lookup id = some run → run.status = .preparing ∨ run.status = .interrupted

/-- A last write is honest when it interrupts a run whose secret inputs have been
consumed and that has not been `RUNNING`. -/
def HonestEnd (fleet : Fleet) (action : Action) : Prop :=
  ∀ processId eventId outcome id worker begun,
    action = .worker processId (.finish eventId outcome) →
    fleet.world.workers.lookup processId = some worker → worker.stage = .executing begun id →
    id ∈ fleet.consumed → id ∉ fleet.launched → outcome.status = .interrupted

theorem mem_launched_onward : id ∈ (fleet.onward world attempts).launched ↔
      (∃ run, world.store.runs.lookup id = some run ∧ run.status = .running) ∨
        id ∈ fleet.launched := by
  simp only [Fleet.onward, List.mem_append, List.mem_map, Table.mem_select]
  refine or_congr_left ⟨?_, ?_⟩
  · rintro ⟨run, ⟨found, running⟩, rfl⟩
    exact ⟨run, found, running⟩
  · rintro ⟨run, found, running⟩
    obtain rfl := Table.key_of_lookup found
    exact ⟨run, ⟨found, running⟩, rfl⟩

/-- **One step of the deployment keeps what the histories say**, if its last
write is honest. -/
theorem HistoryInv.onward (inv : HistoryInv fleet)
    (step : fleet.world.step action = some world) (honestEnd : HonestEnd fleet action) :
    HistoryInv (fleet.onward world attempts) where
  lifecycle := lifecycleInv_inductive.preserved _ _ _ inv.lifecycle step
  sole := soleExecutors_of_step inv.lifecycle inv.sole step
  executed := executedOk_of_step inv.lifecycle inv.sole inv.executed step
  running id run found running := mem_launched_onward.mpr (.inl ⟨run, found, running⟩)
  spent id member := (inv.spent id member).of_step step
  nodup := inv.nodup
  returned := inv.returned
  honest id member never run found := by
    simp only [mem_launched_onward, not_or, not_exists, not_and] at never
    obtain ⟨notRunning, never⟩ := never
    obtain ⟨old, before, _⟩ := (inv.spent id member).unqueued
    rcases inv.honest id member never old before with preparing | interrupted
    · rcases active_of_step step before (by rw [preparing]; rfl) found with active | status | ended
      · cases status : run.status with
        | preparing => exact .inl rfl
        | running => exact absurd status (notRunning run found)
        | _ => rw [status] at active; cases active
      · exact .inr status
      · obtain ⟨processId, eventId, outcome, rfl, ⟨worker, begun, present, executing⟩, status⟩ := ended
        exact .inr (status.trans
          (honestEnd processId eventId outcome id worker begun rfl present executing member never))
    · obtain ⟨row, after, change⟩ := runChange_of_effect (effect_of_step step) before
      obtain rfl := Option.some.inj (after.symm.trans found)
      exact .inr ((change.frozen (by rw [interrupted]; rfl)).1.trans interrupted)

/-- The commit of a consumption keeps what the histories say. -/
theorem HistoryInv.consumes {answered : Bool} (inv : HistoryInv fleet)
    (executes : Executes fleet.world attempt.processId attempt.run.runId)
    (step : fleet.write attempt .consumeSecrets = some world) :
    HistoryInv ((fleet.consumes attempt answered).onward world attempts) := by
  have moved : fleet.world.step (.worker attempt.processId .consumeSecrets) = some world := step
  have next : HistoryInv (fleet.onward world attempts) :=
    inv.onward moved (by rintro _ _ _ _ _ _ ⟨⟩)
  obtain ⟨⟨input, stored⟩, spent⟩ := spent_of_consumption inv.lifecycle executes moved
  exact
    { lifecycle := next.lifecycle
      sole := next.sole
      executed := next.executed
      running := next.running
      spent := by
        intro id member
        rcases List.mem_cons.mp member with rfl | member
        · exact spent
        · exact next.spent id member
      nodup := by
        refine List.nodup_cons.mpr ⟨fun member => ?_, inv.nodup⟩
        exact Table.not_free (inv.spent _ member).absent stored
      returned := by
        cases answered with
        | true => exact inv.returned.cons_cons _
        | false => exact inv.returned.cons _
      honest := by
        intro id member never run found
        rcases List.mem_cons.mp member with rfl | member
        · -- the process that has just consumed still executes the run
          obtain ⟨worker, begun, located, stage⟩ := executes.of_write moved rfl
          rcases next.executed _ worker begun _ run located stage found with active | interrupted
          · cases status : run.status with
            | preparing => exact .inl rfl
            | running =>
                exact absurd (mem_launched_onward.mpr (.inl ⟨run, found, status⟩)) never
            | _ => rw [status] at active; cases active
          · exact .inr interrupted
        · exact next.honest id member never run found }

/-! ## What the attempts say -/

/-- The attempts are those of the processes that execute a run, and their flags
say what has happened to it. -/
structure AttemptsInv (fleet : Fleet) : Prop where
  live : ∀ id attempt, fleet.attempts.lookup id = some attempt →
    Executes fleet.world id attempt.run.runId
  covered : ∀ id runId, Executes fleet.world id runId →
    ∃ attempt, fleet.attempts.lookup id = some attempt
  known : ∀ id attempt, fleet.attempts.lookup id = some attempt →
    attempt.run.runId ∈ fleet.consumed → attempt.secretInputsIrrecoverable = true
  started : ∀ id attempt, fleet.attempts.lookup id = some attempt →
    attempt.point.runStarted = true →
    attempt.run.runId ∈ fleet.launched ∨ Ended attempt.run.runId fleet.world

/-- What must be true of a process after a step: it executes nothing, or there is
an attempt of its run whose flags are true. -/
def SpeaksTrue (fleet : Fleet) (id : Uuid) : Prop :=
  (fleet.attempts.lookup id = none ∧ ∀ runId, ¬ Executes fleet.world id runId) ∨
    ∃ attempt, fleet.attempts.lookup id = some attempt ∧
      Executes fleet.world id attempt.run.runId ∧
      (attempt.run.runId ∈ fleet.consumed → attempt.secretInputsIrrecoverable = true) ∧
      (attempt.point.runStarted = true →
        attempt.run.runId ∈ fleet.launched ∨ Ended attempt.run.runId fleet.world)

/-- **A step of one process keeps what all attempts say**, if it is true of this
process afterwards. -/
theorem AttemptsInv.of_own (inv : AttemptsInv fleet) (own : Uuid)
    (sole : SoleExecutors fleet.world) (leads : deployment.Leads fleet.world fleet'.world)
    (others : ∀ id runId, id ≠ own →
      (Executes fleet'.world id runId ↔ Executes fleet.world id runId))
    (table : ∀ id, id ≠ own → fleet'.attempts.lookup id = fleet.attempts.lookup id)
    (consumed : ∀ id ∈ fleet'.consumed, id ∈ fleet.consumed ∨ Executes fleet.world own id)
    (launched : ∀ id ∈ fleet.launched, id ∈ fleet'.launched)
    (speaks : SpeaksTrue fleet' own) : AttemptsInv fleet' := by
  refine ⟨?_, ?_, ?_, ?_⟩
  · intro id other present
    by_cases same : id = own
    · subst same
      rcases speaks with ⟨gone, _⟩ | ⟨attempt', stays, executes', _⟩
      · exact (Table.not_free gone present).elim
      · obtain rfl := Option.some.inj (stays.symm.trans present)
        exact executes'
    · rw [table id same] at present
      exact (others id _ same).mpr (inv.live id other present)
  · intro id runId executes'
    by_cases same : id = own
    · subst same
      rcases speaks with ⟨_, away⟩ | ⟨attempt', stays, _⟩
      · exact absurd executes' (away runId)
      · exact ⟨attempt', stays⟩
    · rw [table id same]
      exact inv.covered id runId ((others id runId same).mp executes')
  · intro id other present member
    by_cases same : id = own
    · subst same
      rcases speaks with ⟨gone, _⟩ | ⟨attempt', stays, _, known, _⟩
      · exact (Table.not_free gone present).elim
      · obtain rfl := Option.some.inj (stays.symm.trans present)
        exact known member
    · rw [table id same] at present
      rcases consumed _ member with before | executes
      · exact inv.known id other present before
      · exact absurd ((inv.live id other present).sole sole executes) same
  · intro id other present started
    by_cases same : id = own
    · subst same
      rcases speaks with ⟨gone, _⟩ | ⟨attempt', stays, _, _, true'⟩
      · exact (Table.not_free gone present).elim
      · obtain rfl := Option.some.inj (stays.symm.trans present)
        exact true' started
    · rw [table id same] at present
      rcases inv.started id other present started with before | ended
      · exact .inl (launched _ before)
      · exact .inr (ended_of_leads ended leads)

/-- What a fleet says stays true while nothing is written. -/
theorem HistoryInv.idle
    (inv : HistoryInv fleet) : HistoryInv (fleet.onward fleet.world attempts) where
  lifecycle := inv.lifecycle
  sole := inv.sole
  executed := inv.executed
  running _ run found running := mem_launched_onward.mpr (.inl ⟨run, found, running⟩)
  spent := inv.spent
  nodup := inv.nodup
  returned := inv.returned
  honest _ member never :=
    inv.honest _ member fun before => never (mem_launched_onward.mpr (.inr before))

/-- The actions of an attempt are those of its process. -/
theorem executes_iff_of_write {action : WorkerAction}
    (step : fleet.write attempt action = some world) (runId : Uuid)
    (other : id ≠ attempt.processId) :
    Executes world id runId ↔ Executes fleet.world id runId := by
  have moved : fleet.world.step (.worker attempt.processId action) = some world := step
  refine executes_iff_of_step moved ?_
  intro same
  exact other (Option.some.inj same).symm

/-- The attempt of a process that has left is gone … -/
theorem deleted_self (attempts : Table Attempt.processId) (own : Uuid) :
    (attempts.delete fun other => other.processId = own).lookup own = none :=
  Table.lookup_delete_eq_none.mpr fun _ present => Table.key_of_lookup present

/-- … and the others are still there. -/
theorem deleted_other (attempts : Table Attempt.processId) {own : Uuid} (other : id ≠ own) :
    (attempts.delete fun other => other.processId = own).lookup id = attempts.lookup id := by
  refine Option.ext fun next => ?_
  rw [Table.lookup_delete_eq_some]
  refine and_iff_left_of_imp fun present same => ?_
  exact other ((Table.key_of_lookup present).symm.trans same)

/-- **A step of an attempt keeps what the fleet says.** -/
theorem Progress.invariants
    (progress : Progress fleet attempt fleet') (history : HistoryInv fleet)
    (attempts : AttemptsInv fleet)
    (found : fleet.attempts.lookup attempt.processId = some attempt) :
    HistoryInv fleet' ∧ AttemptsInv fleet' := by
  have executes := attempts.live _ attempt found
  have wasKnown := attempts.known _ attempt found
  have wasStarted := attempts.started _ attempt found
  have own := attempts.of_own attempt.processId history.sole progress.leads
  have put_self : ∀ next : Attempt, next.processId = attempt.processId →
      (fleet.attempts.put next).lookup attempt.processId = some next := by
    intro next same
    rw [← same]
    exact Table.lookup_put_self ..
  have put_other : ∀ next : Attempt, next.processId = attempt.processId →
      ∀ id, id ≠ attempt.processId →
        (fleet.attempts.put next).lookup id = fleet.attempts.lookup id := by
    intro next same id other
    refine Table.lookup_put_of_ne _ ?_
    rw [same]
    exact Ne.symm other
  have consumption : ∀ id ∈ attempt.run.runId :: fleet.consumed,
      id ∈ fleet.consumed ∨ Executes fleet.world attempt.processId id := by
    intro id member
    rcases List.mem_cons.mp member with rfl | before
    · exact .inr executes
    · exact .inl before
  cases progress with
  | @turned irrecoverable point known started =>
      refine ⟨history.idle, own (fun _ _ _ => .rfl) (put_other _ rfl) (fun _ member => .inl member)
        (fun _ member => mem_launched_onward.mpr (.inr member))
          (.inr ⟨_, put_self _ rfl, executes, ?_, ?_⟩)⟩
      · intro member
        exact known (wasKnown member)
      · intro begun
        rcases wasStarted (started begun) with before | ended
        · exact .inl (mem_launched_onward.mpr (.inr before))
        · exact .inr ended
  | @wrote action world point step goesOn started =>
      have moved : fleet.world.step (.worker attempt.processId action) = some world := step
      refine ⟨history.onward moved ?_, own (fun _ runId other => executes_iff_of_write step runId other)
        (put_other _ rfl) (fun _ member => .inl member)
        (fun _ member => mem_launched_onward.mpr (.inr member))
        (.inr ⟨_, put_self _ rfl, executes.of_write moved goesOn, wasKnown, ?_⟩)⟩
      · rintro _ _ _ _ _ _ ⟨⟩
        cases goesOn
      · intro begun
        rcases started begun with before | rfl
        · rcases wasStarted before with before | ended
          · exact .inl (mem_launched_onward.mpr (.inr before))
          · exact .inr (ended_of_leads ended (leads_of_write step))
        · rcases running_of_markRunning history.lifecycle history.executed executes moved with
            running | ended
          · exact .inl (mem_launched_onward.mpr (.inl running))
          · exact .inr ended
  | @wroteTwice action world point step goesOn notStarted =>
      have moved : fleet.world.step (.worker attempt.processId action) = some world := step
      refine ⟨(history.onward moved ?_).idle,
        own (fun _ runId other => executes_iff_of_write step runId other) (put_other _ rfl)
          (fun _ member => .inl member)
          (fun _ member => mem_launched_onward.mpr (.inr (mem_launched_onward.mpr (.inr member))))
          (.inr ⟨_, put_self _ rfl, executes.of_write moved goesOn, wasKnown, ?_⟩)⟩
      · rintro _ _ _ _ _ _ ⟨⟩
        cases goesOn
      · intro begun
        rw [notStarted] at begun
        cases begun
  | @consumed world step =>
      refine ⟨history.consumes executes step,
        own (fun _ runId other => executes_iff_of_write step runId other) (put_other _ rfl)
          consumption
          (fun _ member => mem_launched_onward.mpr (.inr member))
          (.inr ⟨_, put_self _ rfl, executes.of_write step rfl, fun _ => rfl, ?_⟩)⟩
      intro begun
      cases begun
  | @lost world world' step fails =>
      refine ⟨(history.consumes executes step).onward fails (by rintro _ _ _ _ _ _ ⟨⟩),
        own (fun _ runId other => ?_) (fun _ => deleted_other _) consumption
          (fun _ member => mem_launched_onward.mpr (.inr (mem_launched_onward.mpr (.inr member))))
          (.inl ⟨deleted_self _ _, fun _ => not_executes_of_fail fails⟩)⟩
      rw [← executes_iff_of_write step runId other]
      exact executes_iff_of_write fails runId other
  | @left world step =>
      exact ⟨history.onward step (by rintro _ _ _ _ _ _ ⟨⟩),
        own (fun _ runId other => executes_iff_of_write step runId other) (fun _ => deleted_other _)
          (fun _ member => .inl member) (fun _ member => mem_launched_onward.mpr (.inr member))
          (.inl ⟨deleted_self _ _, fun _ => not_executes_of_fail step⟩)⟩
  | @finished eventId outcome world step honest =>
      refine ⟨history.onward step ?_,
        own (fun _ runId other => executes_iff_of_write step runId other) (fun _ => deleted_other _)
          (fun _ member => .inl member) (fun _ member => mem_launched_onward.mpr (.inr member))
          (.inl ⟨deleted_self _ _, ?_⟩)⟩
      · rintro _ _ _ id worker begun ⟨⟩ located stage member never
        obtain rfl : id = attempt.run.runId := Executes.unique ⟨worker, begun, located, stage⟩ executes
        refine honest (wasKnown member) ?_
        by_contra begun
        rcases wasStarted (by simpa using begun) with before | ended
        · exact never before
        · -- only the end of an active run is a step
          obtain ⟨run, present, active⟩ := active_of_finish executes step
          obtain ⟨run', present', terminal⟩ := ended
          obtain rfl := Option.some.inj (present.symm.trans present')
          rw [RunStatus.not_active_of_terminal terminal] at active
          cases active
      · rintro runId ⟨worker, begun, located, stage⟩
        exact not_executing_of_finish step located stage

/-- A step that is of no process keeps what all attempts say. -/
theorem AttemptsInv.of_nobody
    (inv : AttemptsInv fleet) (step : fleet.world.step action = some world)
    (nobody : action.process? = none) : AttemptsInv (fleet.onward world fleet.attempts) := by
  have same : ∀ id runId, Executes world id runId ↔ Executes fleet.world id runId := by
    intro id runId
    refine executes_iff_of_step step ?_
    rw [nobody]
    exact Option.some_ne_none id |>.symm
  refine ⟨fun id attempt found => (same id _).mpr (inv.live id attempt found),
    fun id runId executes => inv.covered id runId ((same id runId).mp executes), inv.known, ?_⟩
  intro id attempt found started
  rcases inv.started id attempt found started with before | ended
  · exact .inl (mem_launched_onward.mpr (.inr before))
  · exact .inr (ended_of_leads ended ((System.Leads.refl _).tail step))

/-- **A step of the environment keeps what the fleet says.** -/
theorem environment_invariants
    (step : fleet.world.step action = some world) (free : fleet.attempted action = false)
    (history : HistoryInv fleet) (attempts : AttemptsInv fleet) :
    HistoryInv (fleet.onward world (fleet.enter action world)) ∧
      AttemptsInv (fleet.onward world (fleet.enter action world)) := by
  have next : HistoryInv (fleet.onward world (fleet.enter action world)) := by
    refine history.onward step ?_
    rintro processId _ _ id worker begun rfl located stage
    obtain ⟨attempt, present⟩ := attempts.covered processId id ⟨worker, begun, located, stage⟩
    simp [Fleet.attempted, present] at free
  refine ⟨next, ?_⟩
  have leads : deployment.Leads fleet.world world := (System.Leads.refl _).tail step
  have keeps : ∀ id ∈ fleet.launched,
      id ∈ (fleet.onward world (fleet.enter action world)).launched :=
    fun id member => mem_launched_onward.mpr (.inr member)
  have others : ∀ own, action.process? = some own → ∀ id runId, id ≠ own →
      (Executes world id runId ↔ Executes fleet.world id runId) := by
    intro own moves id runId other
    refine executes_iff_of_step step ?_
    rw [moves]
    intro same
    exact other (Option.some.inj same).symm
  cases action with
  | crash processId =>
      refine attempts.of_own processId history.sole leads (others processId rfl) ?_
        (fun _ member => .inl member) keeps (.inl ⟨?_, ?_⟩)
      · exact fun id other => deleted_other _ other
      · exact deleted_self _ processId
      · rintro runId ⟨worker, begun, located, _⟩
        obtain rfl := Option.some.inj step
        exact (Table.lookup_delete_eq_some.mp located).2 (Table.key_of_lookup located)
  | worker processId action =>
      have absent : fleet.attempts.lookup processId = none := by
        simpa [Fleet.attempted] using free
      have idle : ∀ runId, ¬ Executes fleet.world processId runId := by
        intro runId executes
        obtain ⟨attempt, present⟩ := attempts.covered processId runId executes
        exact Table.not_free absent present
      refine attempts.of_own processId history.sole leads (others processId rfl) ?_
        (fun _ member => .inl member) keeps ?_
      · intro id other
        simp only [Fleet.onward, Fleet.enter]
        split
        · split
          · exact Table.lookup_put_of_ne _ (Ne.symm other)
          · rfl
        · rfl
      · cases located : world.workers.lookup processId with
        | none =>
            refine .inl ⟨by simpa [Fleet.onward, Fleet.enter, located] using absent, ?_⟩
            rintro runId ⟨worker, begun, present, _⟩
            exact Table.not_free located present
        | some worker =>
            cases stage : worker.stage with
            | executing begun runId =>
                -- the process has just claimed the run, from the queue
                rcases executing_of_step step located stage with ⟨old, before, stage'⟩ | claims
                · exact absurd ⟨old, begun, before, stage'⟩ (idle runId)
                · obtain ⟨_, ⟨run, before, queued⟩, run', after, _⟩ := claims
                  have named := Table.key_of_lookup after
                  refine .inr ⟨{ processId := processId, run := run' }, ?_, ?_, ?_, ?_⟩
                  · simp only [Fleet.onward, Fleet.enter, located, Option.map_some, stage, after]
                    exact Table.lookup_put_self ..
                  · exact ⟨worker, begun, located, by rw [stage, named]⟩
                  · intro member
                    obtain ⟨row, present, out⟩ := (history.spent _ (named ▸ member)).unqueued
                    obtain rfl := Option.some.inj (before.symm.trans present)
                    exact absurd queued out
                  · intro begun
                    cases begun
            | _ =>
                refine .inl ⟨by simpa [Fleet.onward, Fleet.enter, located, stage] using absent, ?_⟩
                rintro runId ⟨worker', begun, present, stage'⟩
                obtain rfl := Option.some.inj (located.symm.trans present)
                rw [stage] at stage'
                cases stage'
  | _ => exact attempts.of_nobody step rfl

/-! ## Fleets -/

/-- What a fleet says in every reachable state. -/
structure FleetInv (fleet : Fleet) : Prop where
  history : HistoryInv fleet
  attempts : AttemptsInv fleet

theorem fleetInv_inductive (decryptJson : Uuid → List UInt8 → Nat → Option Dict) :
    (fleets decryptJson).Inductive FleetInv where
  initial fleet start := by
    obtain rfl := start
    have noWorker : ∀ id worker, Fleet.start.world.workers.lookup id ≠ some worker :=
      fun _ _ impossible => by cases impossible
    have noRun : ∀ id run, Fleet.start.world.store.runs.lookup id ≠ some run :=
      fun _ _ impossible => by cases impossible
    have noAttempt : ∀ id attempt, Fleet.start.attempts.lookup id ≠ some attempt :=
      fun _ _ impossible => by cases impossible
    exact
      { history :=
          { lifecycle := lifecycleInv_inductive.initial _ rfl
            sole := fun id _ worker _ _ _ _ found => absurd found (noWorker id worker)
            executed := fun id worker _ _ _ found => absurd found (noWorker id worker)
            running := fun id run found => absurd found (noRun id run)
            spent := fun _ member => absurd member List.not_mem_nil
            nodup := List.nodup_nil
            returned := List.Sublist.refl _
            honest := fun _ member => absurd member List.not_mem_nil }
        attempts :=
          { live := fun id attempt found => absurd found (noAttempt id attempt)
            covered := fun id _ ⟨worker, _, found, _⟩ => absurd found (noWorker id worker)
            known := fun id attempt found => absurd found (noAttempt id attempt)
            started := fun id attempt found => absurd found (noAttempt id attempt) } }
  preserved fleet action fleet' inv step := by
    obtain ⟨history, attempts⟩ := inv
    cases action with
    | environment action =>
        simp only [fleets, Fleet.step] at step
        split at step
        · cases step
        · rename_i free
          obtain ⟨world, moved, rfl⟩ := Option.map_eq_some_iff.mp step
          obtain ⟨history', attempts'⟩ :=
            environment_invariants moved (Bool.not_eq_true _ ▸ free) history attempts
          exact ⟨history', attempts'⟩
    | attempt processId action =>
        obtain ⟨attempt, found, advanced⟩ := Option.bind_eq_some_iff.mp step
        obtain rfl := Table.key_of_lookup found
        obtain ⟨history', attempts'⟩ :=
          (progress_of_advance advanced).invariants history attempts found
        exact ⟨history', attempts'⟩

/-- An exception changes no row. -/
theorem store_of_raised {error : Raised} (step : fleet.raised attempt error = some fleet') :
    fleet'.world.store = fleet.world.store := by
  have failed : ∀ {world}, fleet.write attempt .fail = some world →
      world.store = fleet.world.store := by
    intro world step
    simp only [Fleet.write, World.step] at step
    split at step
    · cases step
    rename_i worker _
    cases stage : worker.stage <;>
      simp only [World.work, stage, World.execute, Option.some.injEq, reduceCtorEq] at step <;>
      exact step ▸ rfl
  unfold Fleet.raised at step
  split at step
  case h_3 => exact Option.some.inj step ▸ rfl
  case h_4 => exact Option.some.inj step ▸ rfl
  case h_5 =>
    obtain ⟨world, left, rfl⟩ := Option.map_eq_some_iff.mp step
    exact failed left
  all_goals
    split at step
    · exact Option.some.inj step ▸ rfl
    · obtain ⟨world, left, rfl⟩ := Option.map_eq_some_iff.mp step
      exact failed left

/-- **A consumption that raises changes no row.** -/
theorem store_of_failed_consume {decryptJson : Uuid → List UInt8 → Nat → Option Dict}
    {names : List String} {error : Raised}
    {answered : Bool} (declared : Attempt.secretNames attempt.run.operationSpec = some names)
    (fails : RunService.consumeSecretInputs decryptJson fleet.world.store attempt.run.runId names =
      .error error) (step : fleet.consume decryptJson attempt answered = some fleet') :
    fleet'.world.store = fleet.world.store := by
  unfold Fleet.consume at step
  rw [declared] at step
  cases names with
  | nil => exact Option.some.inj step ▸ rfl
  | cons name names =>
      simp only [fails] at step
      split at step
      · rename_i answered
        cases answered
      · exact store_of_raised step
      · exact store_of_raised step

/-- **Secret inputs are consumed at most once and accounted for.**  No run's
values are handed out twice; a consumption that raises leaves every row as it
was; and a run whose consumption has committed and that has not been `RUNNING`
ends in no other status than `INTERRUPTED`. -/
theorem secretInputs_consumed_once {decryptJson : Uuid → List UInt8 → Nat → Option Dict}
    {fleet : Fleet} (reached : (fleets decryptJson).Reachable fleet) :
    fleet.returned.Nodup ∧
    (∀ attempt names error action fleet',
      fleet.attempts.lookup attempt.processId = some attempt → attempt.point = .loading →
      Attempt.secretNames attempt.run.operationSpec = some names →
      RunService.consumeSecretInputs decryptJson fleet.world.store attempt.run.runId names =
        .error error →
      action ∈ [AttemptAction.consume, .consumeLost] →
      fleet.step decryptJson (.attempt attempt.processId action) = some fleet' →
      fleet'.world.store = fleet.world.store) ∧
    ∀ id ∈ fleet.consumed, id ∉ fleet.launched → ∀ run,
      fleet.world.store.runs.lookup id = some run → run.status.terminal = true →
        run.status = .interrupted := by
  have inv := (fleetInv_inductive decryptJson).of_reachable reached
  refine ⟨inv.history.nodup.sublist inv.history.returned, ?_, ?_⟩
  · intro attempt names error action fleet' found loading declared fails asked step
    simp only [Fleet.step, found, Option.bind_some, Fleet.advance, loading] at step
    simp only [List.mem_cons, List.not_mem_nil, or_false] at asked
    rcases asked with rfl | rfl
    · exact store_of_failed_consume declared fails step
    · exact store_of_failed_consume declared fails step
  · intro id member never run found terminal
    rcases inv.history.honest id member never run found with preparing | interrupted
    · rw [preparing] at terminal
      cases terminal
    · exact interrupted

/-- A ping that declares its sensitive parameter. -/
def tokenDraft : RunService.Draft :=
  { sealedDraft with operationSpec := [("secretParameterNames", .arr [.str "token"])] }

/-- Every envelope holds one token. -/
def openToken (_ : Uuid) (_ : List UInt8) (_ : Nat) : Option Dict := some [("token", .str "s3cret")]

/-- A worker consumes the secret inputs of its run and fails to prepare it. -/
def consumeThenFail : List FleetAction :=
  (.createRun tokenDraft [] :: claimOnce 1 "a").map FleetAction.environment ++
    [.attempt 1 .consume, .attempt 1 (.raise .valueError), .attempt 1 (.handle 2),
      .attempt 1 (.finish 3 ⟨false, false, 0, 0, none⟩)]

theorem secretInputs_consumeThenFail : ∃ fleet run,
    (fleets openToken).exec .start consumeThenFail = some fleet ∧ fleet.returned = [1] ∧
    fleet.world.store.runs.lookup 1 = some run ∧ run.status = .interrupted := by
  have ran : ((fleets openToken).exec .start consumeThenFail).bind (fun fleet =>
      (fleet.world.store.runs.lookup 1).map fun run =>
        (fleet.consumed, fleet.returned, fleet.launched, run.status.terminal)) =
      some ([1], [1], [], true) := by decide
  obtain ⟨fleet, done, ran⟩ := Option.bind_eq_some_iff.mp ran
  obtain ⟨run, found, ran⟩ := Option.map_eq_some_iff.mp ran
  simp only [Prod.mk.injEq] at ran
  obtain ⟨consumed, returned, launched, terminal⟩ := ran
  refine ⟨fleet, run, done, returned, found, ?_⟩
  refine (secretInputs_consumed_once ⟨.start, rfl, System.leads_of_exec done⟩).2.2 1 ?_ ?_ run found
    terminal
  · simp [consumed]
  · simp [launched]

end OpsComposer.Cluster
