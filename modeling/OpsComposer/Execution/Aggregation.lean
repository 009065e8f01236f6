import OpsComposer.Services.Worker

/-!
# The results of a run

The status of a target in the end is that of the last event that gave its host
one (`settled_status`), or follows from the return code where there is none.  The
design document makes the status of the run a function of those of its targets:
`SUCCEEDED` when all are successful, `PARTIAL` when some have succeeded and some
have failed, `FAILED` when none has succeeded and some have failed.

`execute_run` departs from it in two ways (`aggregates_iff`): it counts a skipped
target as a success when it tells `PARTIAL` from `FAILED`, and it lets the return
code make a run `FAILED` whose targets are all successful.  And since the
accumulators are kept by the name of the host, targets that share one get a single
result.
-/

set_option autoImplicit false

namespace OpsComposer.Services.Worker

open Domain Foundations

/-! ## The status of a target -/

/-- The status that an event gives its target. -/
def statusOf (event : RunnerEvent) : Option RunTargetStatus :=
  if event.event = "runner_on_ok" then some .succeeded
  else if event.event = "runner_on_failed" then some .failed
  else if event.event = "runner_on_unreachable" then some .unreachable
  else if event.event = "runner_on_skipped" then some .skipped
  else none

/-- The last status that the events give a target. -/
def lastStatus (events : List RunnerEvent) (target : RunTarget) : Option RunTargetStatus :=
  ((events.filter fun event => Concerns event target).filterMap statusOf).getLast?

/-- The status of a target from the events and the return code. -/
def statusFrom (events : List RunnerEvent) (rc : Option Int) (target : RunTarget) :
    RunTargetStatus :=
  (lastStatus events target).getD (if rc = some 0 then .succeeded else .failed)

variable (limit : Nat) (events : List RunnerEvent) (accumulator : TargetAccumulator)

theorem accumulate_target (event : RunnerEvent) (accumulator : TargetAccumulator) :
    (accumulate limit event accumulator).target = accumulator.target := by
  have output : ∀ s, (accumulator.addOutput s limit).target = accumulator.target := by
    intro s
    unfold TargetAccumulator.addOutput
    split
    · rfl
    · split <;> rfl
  unfold accumulate
  by_cases quiet : event.stdout ≠ ""
  · simp only [if_pos quiet]
    split_ifs <;> exact output _
  · simp only [if_neg quiet]
    split_ifs <;> rfl

theorem accumulate_status (event : RunnerEvent) (accumulator : TargetAccumulator) :
    (accumulate limit event accumulator).status =
      (statusOf event).getD accumulator.status := by
  have output : ∀ s, (accumulator.addOutput s limit).status = accumulator.status := by
    intro s
    unfold TargetAccumulator.addOutput
    split
    · rfl
    · split <;> rfl
  unfold accumulate statusOf
  by_cases quiet : event.stdout ≠ ""
  · simp only [if_pos quiet]
    split_ifs <;> first | rfl | exact output _
  · simp only [if_neg quiet]
    split_ifs <;> rfl

/-- An accumulator after some events. -/
def folded (limit : Nat) (events : List RunnerEvent) (accumulator : TargetAccumulator) :
    TargetAccumulator :=
  (events.filter fun event => Concerns event accumulator.target).foldl
    (fun accumulator event => accumulate limit event accumulator) accumulator

/-- **Every accumulator is folded by itself.** -/
theorem foldl_foldEvent (accumulators : List TargetAccumulator) :
    events.foldl (foldEvent limit) accumulators = accumulators.map (folded limit events) := by
  induction events generalizing accumulators with
  | nil =>
      have same : folded limit [] = id := rfl
      rw [List.foldl_nil, same, List.map_id]
  | cons event events ih =>
      rw [List.foldl_cons, ih, foldEvent, List.map_map]
      refine List.map_congr_left fun accumulator _ => ?_
      rw [Function.comp_apply, folded, folded]
      by_cases concerns : Concerns event accumulator.target
      · rw [if_pos concerns, accumulate_target, List.filter_cons_of_pos (by simpa using concerns),
          List.foldl_cons]
      · rw [if_neg concerns, List.filter_cons_of_neg (by simpa using concerns)]

theorem foldl_accumulate_target :
    (events.foldl (fun accumulator event => accumulate limit event accumulator)
      accumulator).target = accumulator.target := by
  induction events generalizing accumulator with
  | nil => rfl
  | cons event events ih => rw [List.foldl_cons, ih, accumulate_target]

theorem folded_target :
    (folded limit events accumulator).target = accumulator.target :=
  foldl_accumulate_target limit _ accumulator

theorem foldl_accumulate_status :
    (events.foldl (fun accumulator event => accumulate limit event accumulator)
      accumulator).status = (events.filterMap statusOf).getLast?.getD accumulator.status := by
  induction events generalizing accumulator with
  | nil => rfl
  | cons event events ih =>
      rw [List.foldl_cons, ih, accumulate_status, List.filterMap_cons]
      cases statusOf event with
      | none => rfl
      | some status =>
          rw [List.getLast?_cons]
          rfl

/-- No event sets a target back to `RUNNING`. -/
theorem statusOf_terminal {event : RunnerEvent} {status : RunTargetStatus}
    (gives : statusOf event = some status) :
    status ∈ [.succeeded, .failed, .unreachable, .skipped] := by
  unfold statusOf at gives
  split_ifs at gives <;> obtain rfl := Option.some.inj gives <;> decide

theorem lastStatus_terminal {events : List RunnerEvent} {target : RunTarget}
    {status : RunTargetStatus} (last : lastStatus events target = some status) :
    status ∈ [.succeeded, .failed, .unreachable, .skipped] := by
  obtain ⟨event, -, gives⟩ := List.mem_filterMap.mp (List.mem_of_getLast? last)
  exact statusOf_terminal gives

theorem statusFrom_terminal (rc : Option Int) (target : RunTarget) :
    statusFrom events rc target ∈ [.succeeded, .failed, .unreachable, .skipped] := by
  unfold statusFrom
  cases last : lastStatus events target with
  | none =>
      rw [Option.getD_none]
      split <;> decide
  | some status => exact lastStatus_terminal last

/-- **The status of a target in the end.** -/
theorem settled_status (cancel : Bool) (rc : Option Int) (target : RunTarget) :
    (settle cancel rc (folded limit events { target := target })).status =
      if cancel then .canceled else statusFrom events rc target := by
  have status : (folded limit events { target := target }).status =
      (lastStatus events target).getD .running := foldl_accumulate_status limit _ _
  unfold settle statusFrom
  cases cancel with
  | true => rfl
  | false =>
      rw [if_neg Bool.false_ne_true, if_neg Bool.false_ne_true, status]
      cases last : lastStatus events target with
      | none => rfl
      | some given =>
          have terminal := lastStatus_terminal last
          have other : given ≠ .running := by
            rintro rfl
            exact absurd terminal (by decide)
          rw [Option.getD_some, if_neg other, status, last, Option.getD_some, Option.getD_some]

theorem settle_target (cancel : Bool) (rc : Option Int) (accumulator : TargetAccumulator) :
    (settle cancel rc accumulator).target = accumulator.target := by
  unfold settle
  split_ifs <;> rfl

/-! ## The dict of accumulators -/

/-- The names of the hosts are different. -/
abbrev DistinctHosts (targets : List RunTarget) : Prop :=
  (targets.map RunTarget.hostName).Nodup

/-- The targets that have an accumulator of their own. -/
theorem accumulatorsOf_append (before : List TargetAccumulator) (targets : List RunTarget)
    (distinct : ((before.map TargetAccumulator.target ++ targets).map RunTarget.hostName).Nodup) :
    targets.foldl setAccumulator before =
      before ++ targets.map fun target => { target := target } := by
  induction targets generalizing before with
  | nil => simp
  | cons target targets ih =>
      have fresh : ¬ ∃ accumulator ∈ before, accumulator.target.hostName = target.hostName := by
        rintro ⟨accumulator, member, same⟩
        rw [List.map_append, List.map_cons, List.nodup_append] at distinct
        refine distinct.2.2 accumulator.target.hostName ?_ target.hostName List.mem_cons_self same
        exact List.mem_map_of_mem (List.mem_map_of_mem member)
      rw [List.foldl_cons, setAccumulator, if_neg fresh, ih]
      · simp
      · simpa using distinct

theorem accumulatorsOf_eq {targets : List RunTarget} (distinct : DistinctHosts targets) :
    accumulatorsOf targets = targets.map fun target => { target := target } :=
  accumulatorsOf_append [] targets distinct

/-- No two accumulators are for hosts of one name. -/
theorem distinctHosts_setAccumulator {accumulators : List TargetAccumulator}
    (distinct : DistinctHosts (accumulators.map TargetAccumulator.target)) (target : RunTarget) :
    DistinctHosts ((setAccumulator accumulators target).map TargetAccumulator.target) := by
  unfold setAccumulator
  split
  · have names : (accumulators.map fun accumulator =>
        if accumulator.target.hostName = target.hostName then { target := target }
        else accumulator).map (fun accumulator => accumulator.target.hostName) =
          accumulators.map fun accumulator => accumulator.target.hostName := by
      rw [List.map_map]
      refine List.map_congr_left fun accumulator _ => ?_
      rw [Function.comp_apply]
      split
      · rename_i same
        exact same.symm
      · rfl
    rw [DistinctHosts, List.map_map] at distinct ⊢
    exact names ▸ distinct
  · rename_i fresh
    rw [DistinctHosts, List.map_append, List.map_append, List.nodup_append]
    refine ⟨distinct, by simp, ?_⟩
    intro name member name' member' same
    obtain ⟨other, listed, rfl⟩ := List.mem_map.mp member
    obtain ⟨accumulator, there, rfl⟩ := List.mem_map.mp listed
    simp only [List.map_cons, List.map_nil, List.mem_singleton] at member'
    exact fresh ⟨accumulator, there, same.trans member'⟩

theorem distinctHosts_accumulatorsOf (targets : List RunTarget) :
    DistinctHosts ((accumulatorsOf targets).map TargetAccumulator.target) := by
  have kept : ∀ before : List TargetAccumulator,
      DistinctHosts (before.map TargetAccumulator.target) →
        DistinctHosts ((targets.foldl setAccumulator before).map TargetAccumulator.target) := by
    induction targets with
    | nil => exact fun _ distinct => distinct
    | cons target targets ih =>
        exact fun before distinct => ih _ (distinctHosts_setAccumulator distinct target)
  exact kept [] (by simp [DistinctHosts])

theorem perm_targets_iff {targets : List RunTarget} :
    ((accumulatorsOf targets).map TargetAccumulator.target).Perm targets ↔
      DistinctHosts targets := by
  constructor
  · intro perm
    exact (perm.map RunTarget.hostName).nodup_iff.mp (distinctHosts_accumulatorsOf targets)
  · intro distinct
    rw [accumulatorsOf_eq distinct, List.map_map]
    exact .of_eq (List.map_id targets)

/-! ## What the design demands -/

/-- The statuses that end a target which has been run. -/
def terminalStatuses : List RunTargetStatus :=
  [.succeeded, .failed, .unreachable, .skipped, .canceled]

/-- `FAILED` or `UNREACHABLE`. -/
def Unsuccessful (status : RunTargetStatus) : Prop := status = .failed ∨ status = .unreachable

/-- The statuses that are recorded. -/
def Aggregation.statuses (aggregation : Aggregation) : List RunTargetStatus :=
  aggregation.results.map fun result => result.2.status

/-- The targets and the run end as the design has it. -/
structure Aggregates (targets : List RunTarget) (cancel : Bool) (runnerStatus : Text)
    (aggregation : Aggregation) : Prop where
  /-- Every target gets one result. -/
  once : (aggregation.results.map Prod.fst).Perm targets
  terminal : ∀ status ∈ aggregation.statuses, status ∈ terminalStatuses
  counted : aggregation.successCount + aggregation.failureCount = targets.length
  canceled : cancel = true → aggregation.outcome.status = .canceled ∧
    ∀ status ∈ aggregation.statuses, status = .canceled
  timedOut : cancel = false → TimedOut runnerStatus → aggregation.outcome.status = .timedOut
  succeeded : cancel = false → ¬ TimedOut runnerStatus →
    (aggregation.outcome.status = .succeeded ↔
      ∀ status ∈ aggregation.statuses, successful status)
  partly : cancel = false → ¬ TimedOut runnerStatus →
    (aggregation.outcome.status = .partly ↔ .succeeded ∈ aggregation.statuses ∧
      ∃ status ∈ aggregation.statuses, Unsuccessful status)
  failed : cancel = false → ¬ TimedOut runnerStatus →
    (aggregation.outcome.status = .failed ↔ .succeeded ∉ aggregation.statuses ∧
      ∃ status ∈ aggregation.statuses, Unsuccessful status)

/-- A return code that is zero, or none. -/
def Clean (rc : Option Int) : Prop := rc = some 0 ∨ rc = none

/-- The statuses do not lead the aggregation away from the design: if all targets
are successful, the return code says so, and if some are not and some are skipped,
others have succeeded. -/
structure Regular (rc : Option Int) (statuses : List RunTargetStatus) : Prop where
  clean : (∀ status ∈ statuses, successful status) → Clean rc
  notOnlySkipped : (∃ status ∈ statuses, Unsuccessful status) → .skipped ∈ statuses →
    .succeeded ∈ statuses

/-! ## The aggregation -/

section Statuses

variable {statuses : List RunTargetStatus} {rc : Option Int} {runnerStatus : Text}

theorem countP_successful_ne_zero :
    statuses.countP successful ≠ 0 ↔ .succeeded ∈ statuses ∨ .skipped ∈ statuses := by
  rw [← Nat.pos_iff_ne_zero, List.countP_pos_iff]
  constructor
  · rintro ⟨status, member, good⟩
    cases status with
    | succeeded => exact .inl member
    | skipped => exact .inr member
    | _ => cases good
  · rintro (member | member)
    · exact ⟨_, member, rfl⟩
    · exact ⟨_, member, rfl⟩

/-- The targets that have been run are successful or not. -/
theorem not_successful_iff {status : RunTargetStatus}
    (run : status ∈ [.succeeded, .failed, .unreachable, .skipped]) :
    successful status = false ↔ Unsuccessful status := by
  cases status with
  | succeeded | failed | unreachable | skipped => simp [successful, Unsuccessful]
  | _ => exact absurd run (by decide)

theorem countP_unsuccessful_ne_zero
    (run : ∀ status ∈ statuses, status ∈ [.succeeded, .failed, .unreachable, .skipped]) :
    (statuses.countP fun status => !successful status) ≠ 0 ↔
      ∃ status ∈ statuses, Unsuccessful status := by
  rw [← Nat.pos_iff_ne_zero, List.countP_pos_iff]
  constructor
  · rintro ⟨status, member, bad⟩
    exact ⟨status, member, (not_successful_iff (run status member)).mp (by simpa using bad)⟩
  · rintro ⟨status, member, bad⟩
    exact ⟨status, member, by simpa using (not_successful_iff (run status member)).mpr bad⟩

theorem all_successful_iff
    (run : ∀ status ∈ statuses, status ∈ [.succeeded, .failed, .unreachable, .skipped]) :
    (∀ status ∈ statuses, successful status) ↔ ¬ ∃ status ∈ statuses, Unsuccessful status := by
  constructor
  · rintro all ⟨status, member, bad⟩
    have good := all status member
    rw [(not_successful_iff (run status member)).mpr bad] at good
    cases good
  · intro none status member
    by_contra bad
    exact none ⟨status, member,
      (not_successful_iff (run status member)).mp (Bool.eq_false_iff.mpr bad)⟩

/-- The status of a run that is neither canceled nor timed out. -/
theorem finalStatus_eq (inTime : ¬ TimedOut runnerStatus)
    (run : ∀ status ∈ statuses, status ∈ [.succeeded, .failed, .unreachable, .skipped])
    {status : RunStatus} (final : status = finalStatus false runnerStatus rc
      (statuses.countP successful) (statuses.countP fun status => !successful status)) :
    ((∃ status ∈ statuses, Unsuccessful status) →
      status = if .succeeded ∈ statuses ∨ .skipped ∈ statuses then .partly else .failed) ∧
    ((¬ ∃ status ∈ statuses, Unsuccessful status) →
      (Clean rc → status = .succeeded) ∧ (¬ Clean rc → status = .failed)) := by
  have good : statuses.countP successful ≠ 0 ↔ _ := countP_successful_ne_zero
  have bad := countP_unsuccessful_ne_zero run
  rw [final, finalStatus, if_neg Bool.false_ne_true, if_neg inTime]
  constructor
  · intro some
    by_cases any : .succeeded ∈ statuses ∨ .skipped ∈ statuses
    · rw [if_pos ⟨bad.mpr some, good.mpr any⟩, if_pos any]
    · rw [if_neg fun both => any (good.mp both.2), if_pos (.inl (bad.mpr some)), if_neg any]
  · intro none
    have noFailure := fun failure => none (bad.mp failure)
    rw [if_neg fun both => noFailure both.1]
    constructor
    · rintro (rfl | rfl)
      · rw [if_neg]
        exact fun either => either.elim noFailure fun both => both.1 rfl
      · rw [if_neg]
        exact fun either => either.elim noFailure fun both => both.2 rfl
    · intro unclean
      rw [if_pos (.inr (not_or.mp unclean))]

/-- **The status of the run and those of its targets.** -/
theorem finalStatus_iff (inTime : ¬ TimedOut runnerStatus)
    (run : ∀ status ∈ statuses, status ∈ [.succeeded, .failed, .unreachable, .skipped])
    {status : RunStatus} (final : status = finalStatus false runnerStatus rc
      (statuses.countP successful) (statuses.countP fun status => !successful status)) :
    ((status = .succeeded ↔ ∀ status ∈ statuses, successful status) ∧
      (status = .partly ↔ .succeeded ∈ statuses ∧ ∃ status ∈ statuses, Unsuccessful status) ∧
        (status = .failed ↔ .succeeded ∉ statuses ∧ ∃ status ∈ statuses, Unsuccessful status)) ↔
      Regular rc statuses := by
  obtain ⟨ifBad, ifGood⟩ := finalStatus_eq inTime run final
  rw [all_successful_iff run]
  by_cases bad : ∃ status ∈ statuses, Unsuccessful status
  · have value := ifBad bad
    have regular : Regular rc statuses ↔ (.skipped ∈ statuses → .succeeded ∈ statuses) :=
      ⟨fun r => r.notOnlySkipped bad, fun skipped =>
        ⟨fun all => absurd bad ((all_successful_iff run).mp all), fun _ => skipped⟩⟩
    rw [regular, value]
    by_cases succeeded : .succeeded ∈ statuses
    · simp [bad, succeeded]
    · by_cases skipped : .skipped ∈ statuses <;> simp [bad, succeeded, skipped]
  · have regular : Regular rc statuses ↔ Clean rc :=
      ⟨fun r => r.clean ((all_successful_iff run).mpr bad), fun clean =>
        ⟨fun _ => clean, fun some => absurd some bad⟩⟩
    rw [regular]
    by_cases clean : Clean rc
    · rw [(ifGood bad).1 clean]
      simp [bad, clean]
    · rw [(ifGood bad).2 clean]
      simp [bad, clean]

end Statuses

section Aggregate

variable {limit : Nat} {targets : List RunTarget} {events : List RunnerEvent} {cancel : Bool}
  {rc : Option Int} {runnerStatus : Text}

theorem results_fst_executeRun :
    (executeRun limit targets events cancel rc runnerStatus).results.map Prod.fst =
      (accumulatorsOf targets).map TargetAccumulator.target := by
  simp only [executeRun, aggregate, foldl_foldEvent, List.map_map]
  refine List.map_congr_left fun accumulator _ => ?_
  simp only [Function.comp_apply, settle_target, folded_target]

/-- The recorded statuses, when every target has an accumulator. -/
theorem statuses_executeRun (distinct : DistinctHosts targets) :
    (executeRun limit targets events cancel rc runnerStatus).statuses =
      targets.map fun target => if cancel then .canceled else statusFrom events rc target := by
  simp only [Aggregation.statuses, executeRun, aggregate, foldl_foldEvent,
    accumulatorsOf_eq distinct, List.map_map]
  refine List.map_congr_left fun target _ => ?_
  simp only [Function.comp_apply, targetResult, settled_status]

/-- The status of the run is computed from the recorded statuses. -/
theorem outcome_executeRun :
    let aggregation := executeRun limit targets events cancel rc runnerStatus
    aggregation.successCount = aggregation.statuses.countP successful ∧
      aggregation.failureCount = (aggregation.statuses.countP fun status => !successful status) ∧
        aggregation.outcome.status = finalStatus cancel runnerStatus rc
          (aggregation.statuses.countP successful)
            (aggregation.statuses.countP fun status => !successful status) := by
  simp only [Aggregation.statuses, executeRun, aggregate, List.countP_map, Function.comp_def,
    targetResult, List.map_map, and_self]

theorem once_iff : ((executeRun limit targets events cancel rc runnerStatus).results.map
    Prod.fst).Perm targets ↔ DistinctHosts targets := by
  rw [results_fst_executeRun, perm_targets_iff]

theorem counted_executeRun (distinct : DistinctHosts targets) :
    (executeRun limit targets events cancel rc runnerStatus).successCount +
      (executeRun limit targets events cancel rc runnerStatus).failureCount = targets.length := by
  obtain ⟨successes, failures, -⟩ :
      (executeRun limit targets events cancel rc runnerStatus).successCount = _ ∧
        (executeRun limit targets events cancel rc runnerStatus).failureCount = _ ∧ _ :=
    outcome_executeRun
  have length := List.length_eq_countP_add_countP successful
    (l := (executeRun limit targets events cancel rc runnerStatus).statuses)
  rw [successes, failures]
  simp only [statuses_executeRun distinct, List.length_map, Bool.not_eq_true] at length ⊢
  rw [length]
  congr 1
  refine List.countP_congr fun status _ => ?_
  simp

/-- **When the results of a run are those of the design.** -/
theorem aggregates_iff (limit : Nat) (targets : List RunTarget) (events : List RunnerEvent)
    (cancel : Bool) (rc : Option Int) (runnerStatus : Text) :
    Aggregates targets cancel runnerStatus
        (executeRun limit targets events cancel rc runnerStatus) ↔
      DistinctHosts targets ∧ (cancel = true ∨ TimedOut runnerStatus ∨
        Regular rc (targets.map (statusFrom events rc))) := by
  by_cases distinct : DistinctHosts targets
  swap
  · exact ⟨fun aggregates => absurd (once_iff.mp aggregates.once) distinct,
      fun both => absurd both.1 distinct⟩
  obtain ⟨-, -, final⟩ :
      (executeRun limit targets events cancel rc runnerStatus).successCount = _ ∧ _ ∧
        (executeRun limit targets events cancel rc runnerStatus).outcome.status = _ :=
    outcome_executeRun
  have statuses : (executeRun limit targets events cancel rc runnerStatus).statuses = _ :=
    statuses_executeRun distinct
  have once : ((executeRun limit targets events cancel rc runnerStatus).results.map
      Prod.fst).Perm targets := once_iff.mpr distinct
  have counted : (executeRun limit targets events cancel rc runnerStatus).successCount + _ = _ :=
    counted_executeRun distinct
  generalize executeRun limit targets events cancel rc runnerStatus = aggregation at *
  cases cancel with
  | true =>
      have all : ∀ status ∈ aggregation.statuses, status = .canceled := by
        rw [statuses]
        intro status member
        obtain ⟨target, -, rfl⟩ := List.mem_map.mp member
        rfl
      refine ⟨fun _ => ⟨distinct, .inl rfl⟩, fun _ => ⟨once, fun status member => ?_, counted,
        fun _ => ⟨final, all⟩, nofun, nofun, nofun, nofun⟩⟩
      rw [all status member]
      decide
  | false =>
      have same : aggregation.statuses = targets.map (statusFrom events rc) := statuses
      have run : ∀ status ∈ aggregation.statuses,
          status ∈ [.succeeded, .failed, .unreachable, .skipped] := by
        rw [same]
        intro status member
        obtain ⟨target, -, rfl⟩ := List.mem_map.mp member
        exact statusFrom_terminal events rc target
      have terminal : ∀ status ∈ aggregation.statuses, status ∈ terminalStatuses := by
        intro status member
        have few := run status member
        simp only [terminalStatuses, List.mem_cons] at few ⊢
        tauto
      rw [← same]
      by_cases late : TimedOut runnerStatus
      · have timedOut : aggregation.outcome.status = .timedOut := by
          rw [final, finalStatus, if_neg Bool.false_ne_true, if_pos late]
        exact ⟨fun _ => ⟨distinct, .inr (.inl late)⟩, fun _ => ⟨once, terminal, counted, nofun,
          fun _ _ => timedOut, fun _ inTime => absurd late inTime,
          fun _ inTime => absurd late inTime, fun _ inTime => absurd late inTime⟩⟩
      · have design := finalStatus_iff late run final
        constructor
        · intro aggregates
          exact ⟨distinct, .inr (.inr (design.mp ⟨aggregates.succeeded rfl late,
            aggregates.partly rfl late, aggregates.failed rfl late⟩))⟩
        · rintro ⟨-, canceled | timedOut | regular⟩
          · cases canceled
          · exact absurd timedOut late
          · obtain ⟨succeeded, partly, failed⟩ := design.mpr regular
            exact ⟨once, terminal, counted, nofun, fun _ timedOut => absurd timedOut late,
              fun _ _ => succeeded, fun _ _ => partly, fun _ _ => failed⟩

end Aggregate

/-- A run against one host. -/
def webTarget : RunTarget where
  runTargetId := 1
  runId := 1
  hostId := 1
  hostName := "web"
  hostAddress := "10.0.0.1"
  status := .running

/-- A second host. -/
def dbTarget : RunTarget := { webTarget with runTargetId := 2, hostId := 2, hostName := "db" }

/-- The task has succeeded on the only host, and the runner has returned 2. -/
def unreportedRun : Aggregation :=
  executeRun 1024 [webTarget] [{ event := "runner_on_ok", host := some "web" }] false (some 2)
    (text "failed")

/-- The task has been skipped on one host and has failed on the other. -/
def skippedRun : Aggregation :=
  executeRun 1024 [webTarget, dbTarget]
    [{ event := "runner_on_skipped", host := some "web" },
      { event := "runner_on_failed", host := some "db" }] false (some 2) (text "failed")

/-- **Two runs whose status is not that of the design**: one that is `FAILED` with all
its targets successful, and one that is `PARTIAL` with no target that has
succeeded. -/
theorem aggregates_fails :
    (unreportedRun.statuses = [.succeeded] ∧ unreportedRun.outcome.status = .failed ∧
      ¬ Aggregates [webTarget] false (text "failed") unreportedRun) ∧
    (skippedRun.statuses = [.skipped, .failed] ∧ skippedRun.outcome.status = .partly ∧
      ¬ Aggregates [webTarget, dbTarget] false (text "failed") skippedRun) := by
  have inTime : ¬ TimedOut (text "failed") := by decide
  refine ⟨⟨by decide, by decide, fun fine => ?_⟩, ⟨by decide, by decide, fun fine => ?_⟩⟩
  · exact absurd ((fine.succeeded rfl inTime).mpr (by decide)) (by decide)
  · exact absurd ((fine.partly rfl inTime).mp (by decide)).1 (by decide)

end OpsComposer.Services.Worker
