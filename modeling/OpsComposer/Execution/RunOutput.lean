import Mathlib.Algebra.Group.Action.Defs
import Mathlib.Data.List.Dedup
import OpsComposer.Execution.Clipping

/-!
# The output of a run

`execute_run` shares `max_run_output_bytes` among the targets: each may keep the
quotient, but no less than 64 KiB and no more than 1 MiB.  What a run keeps is the
sum over the accumulators of the first bytes of what their hosts have written
(`keptBytes_executeRun`), and every accumulator may keep two bytes more than its
limit, when the limit falls inside a character.

* `kept_within_iff` — a run keeps no more than `max_run_output_bytes`, whatever its
  events are, if and only if the hosts leave room for the limits and those two bytes;
* `room_iff` — since the quotient leaves no room for them, and the floor does not
  even leave room for the limits, this is so only where the cap of 1 MiB decides.

The negative control is a run against two hosts.
-/

set_option autoImplicit false

namespace OpsComposer.Services.Worker

open Domain Foundations String

/-! ## One target -/

section Target

variable {limit : Nat} {accumulator : TargetAccumulator} {s : List Char}

/-- What an event adds to the output of its host. -/
def outputOf (event : RunnerEvent) : List Char :=
  if event.stdout = "" then [] else (event.stdout ++ "\n").toList

/-- What a host has written. -/
def written (events : List RunnerEvent) (target : RunTarget) : List Char :=
  (events.filter fun event => Concerns event target).flatMap outputOf

theorem Keeps.accumulate (keeps : Keeps limit accumulator s) (event : RunnerEvent) :
    Keeps limit (accumulate limit event accumulator) (s ++ outputOf event) := by
  unfold Worker.accumulate outputOf
  by_cases quiet : event.stdout = ""
  · rw [if_pos quiet, List.append_nil]
    simp only [ne_eq, quiet, not_true_eq_false, if_false]
    split_ifs <;> exact ⟨keeps.kept, keeps.size, keeps.truncated⟩
  · have next := keeps.addOutput (event.stdout ++ "\n")
    rw [if_neg quiet]
    simp only [ne_eq, quiet, not_false_eq_true, if_true]
    split_ifs <;> exact ⟨next.kept, next.size, next.truncated⟩

theorem Keeps.foldl_accumulate (keeps : Keeps limit accumulator s) (events : List RunnerEvent) :
    Keeps limit (events.foldl (fun accumulator event => Worker.accumulate limit event accumulator)
      accumulator) (s ++ events.flatMap outputOf) := by
  induction events generalizing accumulator s with
  | nil => simpa using keeps
  | cons event events ih =>
      have rest := ih (keeps.accumulate event)
      rwa [List.append_assoc, ← List.flatMap_cons] at rest

/-- **A target keeps the first bytes of what its host has written.** -/
theorem keeps_folded (limit : Nat) (events : List RunnerEvent) (target : RunTarget) :
    Keeps limit (folded limit events { target := target }) (written events target) :=
  (keeps_start limit target).foldl_accumulate _

end Target

/-! ## The run -/

/-- The bytes of the standard output that is recorded for the targets. -/
def keptBytes (aggregation : Aggregation) : Nat :=
  (aggregation.results.map fun result => result.2.stdout.utf8ByteSize).sum

theorem settle_chunks (cancel : Bool) (rc : Option Int) (accumulator : TargetAccumulator) :
    (settle cancel rc accumulator).chunks = accumulator.chunks := by
  unfold settle
  split_ifs <;> rfl

theorem fresh_of_mem_accumulatorsOf {targets : List RunTarget} {accumulator : TargetAccumulator}
    (member : accumulator ∈ accumulatorsOf targets) :
    accumulator = { target := accumulator.target } := by
  have kept : ∀ before : List TargetAccumulator,
      (∀ accumulator ∈ before, accumulator = { target := accumulator.target }) →
        ∀ accumulator ∈ targets.foldl setAccumulator before,
          accumulator = { target := accumulator.target } := by
    clear member
    induction targets with
    | nil => exact fun before fresh => fresh
    | cons target targets ih =>
        intro before fresh
        apply ih
        intro accumulator member
        unfold setAccumulator at member
        split at member
        · obtain ⟨other, there, rfl⟩ := List.mem_map.mp member
          split
          · rfl
          · exact fresh other there
        · rcases List.mem_append.mp member with there | new
          · exact fresh accumulator there
          · obtain rfl := List.mem_singleton.mp new
            rfl
  exact kept [] (fun _ none => absurd none List.not_mem_nil) accumulator member

/-- **What a run keeps.** -/
theorem keptBytes_executeRun (limit : Nat) (targets : List RunTarget) (events : List RunnerEvent)
    (cancel : Bool) (rc : Option Int) (runnerStatus : Text) :
    keptBytes (executeRun limit targets events cancel rc runnerStatus) =
      ((accumulatorsOf targets).map fun accumulator =>
        utf8Len (clipHead limit (written events accumulator.target))).sum := by
  rw [keptBytes, executeRun, foldl_foldEvent]
  simp only [aggregate, List.map_map]
  congr 1
  refine List.map_congr_left fun accumulator member => ?_
  have keeps := keeps_folded limit events accumulator.target
  rw [← fresh_of_mem_accumulatorsOf member] at keeps
  simp only [Function.comp_apply, targetResult, settle_chunks]
  rw [← keeps.kept, utf8Len_toList]

theorem mem_hostNames_setAccumulator {accumulators : List TargetAccumulator} {target : RunTarget}
    {name : String} :
    name ∈ (setAccumulator accumulators target).map (fun accumulator =>
        accumulator.target.hostName) ↔
      name ∈ accumulators.map (fun accumulator => accumulator.target.hostName) ∨
        name = target.hostName := by
  unfold setAccumulator
  split
  · rename_i isThere
    have same : (accumulators.map fun accumulator =>
        if accumulator.target.hostName = target.hostName then { target := target }
        else accumulator).map (fun accumulator => accumulator.target.hostName) =
          accumulators.map fun accumulator => accumulator.target.hostName := by
      rw [List.map_map]
      refine List.map_congr_left fun accumulator _ => ?_
      rw [Function.comp_apply]
      split
      · rename_i same
        exact same.symm
      · rfl
    rw [same]
    constructor
    · exact .inl
    · rintro (there | rfl)
      · exact there
      · obtain ⟨accumulator, member, named⟩ := isThere
        exact List.mem_map.mpr ⟨accumulator, member, named⟩
  · rw [List.map_append, List.mem_append, List.map_singleton, List.mem_singleton]

theorem mem_hostNames_accumulatorsOf {targets : List RunTarget} {name : String} :
    name ∈ (accumulatorsOf targets).map (fun accumulator => accumulator.target.hostName) ↔
      name ∈ targets.map RunTarget.hostName := by
  have names : ∀ before : List TargetAccumulator,
      name ∈ (targets.foldl setAccumulator before).map (fun accumulator =>
          accumulator.target.hostName) ↔
        name ∈ before.map (fun accumulator => accumulator.target.hostName) ∨
          name ∈ targets.map RunTarget.hostName := by
    induction targets with
    | nil => simp
    | cons target targets ih =>
        intro before
        rw [List.foldl_cons, ih, mem_hostNames_setAccumulator, List.map_cons, List.mem_cons,
          or_assoc]
  rw [accumulatorsOf, names]
  simp

/-- The accumulators are those of the hosts. -/
theorem length_accumulatorsOf (targets : List RunTarget) :
    (accumulatorsOf targets).length = (targets.map RunTarget.hostName).dedup.length := by
  have distinct := distinctHosts_accumulatorsOf targets
  rw [DistinctHosts, List.map_map] at distinct
  have perm : ((accumulatorsOf targets).map fun accumulator => accumulator.target.hostName).Perm
      (targets.map RunTarget.hostName).dedup := by
    refine (List.perm_ext_iff_of_nodup distinct (List.nodup_dedup _)).mpr fun name => ?_
    rw [List.mem_dedup]
    exact mem_hostNames_accumulatorsOf
  rw [← perm.length_eq, List.length_map]

/-! ## The longest output -/

section Longest

variable {limit : Nat}

/-- One byte less than the limit, and a character of two bytes. -/
def longestOutput (limit : Nat) : String := String.ofList (List.replicate (limit - 1) 'a' ++ ['é'])

/-- Every host writes an output that is cut inside its last character. -/
def longestEvents (limit : Nat) (targets : List RunTarget) : List RunnerEvent :=
  targets.map fun target => { stdout := longestOutput limit, host := some target.hostName }

theorem outputOf_longest (limit : Nat) (host : Option String) :
    outputOf { stdout := longestOutput limit, host := host } =
      List.replicate (limit - 1) 'a' ++ ['é', '\n'] := by
  have spoken : longestOutput limit ≠ "" := by
    intro empty
    have characters := congrArg String.toList empty
    rw [longestOutput, String.toList_ofList] at characters
    simp at characters
  rw [outputOf, if_neg spoken, String.toList_append, longestOutput, String.toList_ofList,
    List.append_assoc]
  rfl

/-- **A host whose output is cut inside a character** keeps two bytes too many. -/
theorem utf8Len_longest (positive : 0 < limit) {targets : List RunTarget} {target : RunTarget}
    (member : target.hostName ∈ targets.map RunTarget.hostName) :
    utf8Len (clipHead limit (written (longestEvents limit targets) target)) = limit + 2 := by
  have filtered : (longestEvents limit targets).filter (fun event => Concerns event target) =
      (targets.filter fun other => other.hostName = target.hostName).map
        fun other => { stdout := longestOutput limit, host := some other.hostName } := by
    rw [longestEvents, List.filter_map]
    congr 1
    simp [Function.comp_def, Concerns]
  obtain ⟨other, isTarget, named⟩ := List.mem_map.mp member
  have some : other ∈ targets.filter fun other => other.hostName = target.hostName := by
    simpa using ⟨isTarget, named⟩
  obtain ⟨first, rest, cut⟩ := List.exists_cons_of_ne_nil (List.ne_nil_of_mem some)
  have length : utf8Len (List.replicate (limit - 1) 'a') = limit - 1 := by
    rw [utf8Len_replicate]
    exact Nat.mul_one _
  have two : Char.utf8Size 'é' = 2 := rfl
  have three : Char.utf8Size '\uFFFD' = 3 := rfl
  rw [written, filtered, cut, List.map_cons, List.flatMap_cons, outputOf_longest,
    List.append_assoc, List.cons_append, clipHead_cut (by omega) (by omega), if_neg (by omega),
    utf8Len_append, length, utf8Len_cons, utf8Len_nil, three]
  omega

end Longest

/-! ## The bound -/

theorem perHostLimit_pos (maxRunOutputBytes targets : Nat) :
    0 < perHostLimit maxRunOutputBytes targets := by
  unfold perHostLimit
  omega

/-- **A run keeps no more than `max_run_output_bytes`, whatever its events are**, if and only
if the hosts leave room for the limit of each and the two bytes that it may be exceeded by. -/
theorem kept_within_iff (maxRunOutputBytes : Nat) (targets : List RunTarget) :
    (∀ (events : List RunnerEvent) (cancel : Bool) (rc : Option Int) (runnerStatus : Text),
        keptBytes (executeRun (perHostLimit maxRunOutputBytes targets.length) targets events
          cancel rc runnerStatus) ≤ maxRunOutputBytes) ↔
      (targets.map RunTarget.hostName).dedup.length *
        (perHostLimit maxRunOutputBytes targets.length + 2) ≤ maxRunOutputBytes := by
  have positive := perHostLimit_pos maxRunOutputBytes targets.length
  generalize perHostLimit maxRunOutputBytes targets.length = limit at positive
  rw [← length_accumulatorsOf]
  constructor
  · intro within
    have longest := within (longestEvents limit targets) false none []
    rw [keptBytes_executeRun] at longest
    have all : ((accumulatorsOf targets).map fun accumulator =>
        utf8Len (clipHead limit (written (longestEvents limit targets) accumulator.target))) =
          (accumulatorsOf targets).map fun _ => limit + 2 := by
      refine List.map_congr_left fun accumulator member => utf8Len_longest positive ?_
      exact mem_hostNames_accumulatorsOf.mp (List.mem_map.mpr ⟨accumulator, member, rfl⟩)
    rw [all, List.map_const', List.sum_replicate, smul_eq_mul] at longest
    exact longest
  · intro room events cancel rc runnerStatus
    rw [keptBytes_executeRun]
    refine (List.sum_le_card_nsmul _ (limit + 2) ?_).trans ?_
    · intro bytes member
      obtain ⟨accumulator, -, rfl⟩ := List.mem_map.mp member
      exact utf8Len_clipHead_le
    · rw [List.length_map, smul_eq_mul]
      exact room

/-- The limits leave room for the two bytes only where the cap decides them. -/
theorem room_iff {maxRunOutputBytes hosts : Nat} (some : 0 < hosts) :
    hosts * (perHostLimit maxRunOutputBytes hosts + 2) ≤ maxRunOutputBytes ↔
      hosts * (1024 * 1024 + 2) ≤ maxRunOutputBytes := by
  have least : max 1 hosts = hosts := max_eq_right some
  rw [perHostLimit, least]
  rcases Nat.lt_or_ge (maxRunOutputBytes / hosts) (1024 * 1024) with low | high
  · have beyond : maxRunOutputBytes < hosts * (maxRunOutputBytes / hosts + 1) :=
      Nat.lt_mul_div_succ _ some
    have atLeast : maxRunOutputBytes / hosts + 1 ≤
        min (1024 * 1024) (max (64 * 1024) (maxRunOutputBytes / hosts)) + 2 := by omega
    have floor : maxRunOutputBytes / hosts + 1 ≤ 1024 * 1024 + 2 := by omega
    refine iff_of_false ?_ ?_
    · exact Nat.not_le.mpr (beyond.trans_le (Nat.mul_le_mul_left _ atLeast))
    · exact Nat.not_le.mpr (beyond.trans_le (Nat.mul_le_mul_left _ floor))
  · have cap : min (1024 * 1024) (max (64 * 1024) (maxRunOutputBytes / hosts)) = 1024 * 1024 := by
      omega
    rw [cap]

/-- **Two hosts** keep twice the floor and four bytes more, where the setting allows for the
floor once. -/
theorem kept_within_fails :
    ¬ keptBytes (executeRun (perHostLimit (64 * 1024) [webTarget, dbTarget].length)
      [webTarget, dbTarget] (longestEvents (64 * 1024) [webTarget, dbTarget]) false (some 0)
      (text "successful")) ≤ 64 * 1024 := by
  have floor : perHostLimit (64 * 1024) [webTarget, dbTarget].length = 64 * 1024 := by decide
  have both : accumulatorsOf [webTarget, dbTarget] =
      [{ target := webTarget }, { target := dbTarget }] := accumulatorsOf_eq (by decide)
  have longest : ∀ target ∈ [webTarget, dbTarget],
      utf8Len (clipHead (64 * 1024)
        (written (longestEvents (64 * 1024) [webTarget, dbTarget]) target)) = 64 * 1024 + 2 :=
    fun target member => utf8Len_longest (by decide) (List.mem_map_of_mem member)
  rw [floor, keptBytes_executeRun, both]
  simp only [List.map_cons, List.map_nil, longest webTarget (by simp), longest dbTarget (by simp)]
  decide

end OpsComposer.Services.Worker
