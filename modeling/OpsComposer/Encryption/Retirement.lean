import OpsComposer.Encryption.Rotations

/-!
# What a rotation that has succeeded means

A job ends when a batch has counted no record under another key version.  The count is one
statement among others, so it tells of the moment of its snapshot only; but where every process
has the one keyring and seals under its primary version, a record that has come under this version
never leaves it.  So in every state in which a job has succeeded all records are under the primary
version (`succeeded_retires`), and the old keys can be given up.
-/

set_option autoImplicit false

namespace OpsComposer.Encryption

open Domain (Uuid)
open Foundations Services RowStore

/-! ## Counting -/

/-- Elements are counted value by value. -/
theorem sum_countP_values {α : Type} (f : α → Nat) (elements : List α) {values : List Nat}
    (distinct : values.Nodup) :
    (values.map fun value => elements.countP fun a => decide (f a = value)).sum =
      elements.countP fun a => decide (f a ∈ values) := by
  induction elements with
  | nil => simp
  | cons a elements ih =>
      have single : (values.map fun value => if f a = value then 1 else 0).sum =
          if f a ∈ values then 1 else 0 := by
        clear ih
        induction values with
        | nil => rfl
        | cons value values ih =>
            obtain ⟨apart, distinct⟩ := List.nodup_cons.mp distinct
            rw [List.map_cons, List.sum_cons, ih distinct]
            by_cases same : f a = value
            · simp [same, apart]
            · simp [same]
      simp only [List.countP_cons, List.sum_map_add, ih, decide_eq_true_eq, single]

section Counts

variable {store : EncryptionStore}

theorem mem_records {record : EncryptedRecord} :
    record ∈ store.records ↔ store.record? record.recordId = some record := by
  rw [EncryptionStore.records, List.mem_filterMap, EncryptionStore.record?, RowKind.at?_eq_some]
  constructor
  · rintro ⟨row, member, isRecord⟩
    obtain rfl := (EncryptionRow.records.unwrap_eq_some row record).mp isRecord
    exact RowStore.lookup_of_mem (s := store) member
  · intro found
    exact ⟨_, RowStore.mem_of_lookup found, EncryptionRow.records.unwrap_wrap record⟩

/-- The records that are not under the version. -/
def EncryptionStore.outdatedCount (store : EncryptionStore) (target : Nat) : Nat :=
  store.records.countP fun record => decide (record.encryptionKeyVersion ≠ target)

/-- A record is counted under its kind. -/
theorem totalCount_usage (version : Nat) : (store.usage version).totalCount =
    store.records.countP fun record => decide (record.encryptionKeyVersion = version) := by
  show store.count .credential version + store.count .mfa version + store.count .system version +
    store.count .runSecret version = _
  unfold EncryptionStore.count
  induction store.records with
  | nil => rfl
  | cons record records ih =>
      simp only [List.countP_cons, decide_eq_true_eq, ← ih]
      cases record.recordId.kind <;> by_cases same : record.encryptionKeyVersion = version <;>
        simp only [same, and_true, and_false, reduceCtorEq, ↓reduceIte] <;> omega

theorem nodup_versions : store.versions.Nodup :=
  (List.perm_insertionSort ..).nodup_iff.mpr (List.nodup_dedup _)

theorem version_mem_versions {record : EncryptedRecord} (member : record ∈ store.records) :
    record.encryptionKeyVersion ∈ store.versions := by
  rw [EncryptionStore.versions, List.mem_insertionSort, List.mem_dedup, List.mem_append]
  exact .inr (List.mem_map_of_mem member)

/-- **The number that a batch writes into its job** is that of the records that are not under the
version. -/
theorem remainingCount_usage (target : Nat) :
    remainingCount target (usagesOf (store.versions.map fun version =>
      .usage (store.usage version))) = store.outdatedCount target := by
  have usages : usagesOf (store.versions.map fun version => .usage (store.usage version)) =
      store.versions.map store.usage := by
    rw [usagesOf, List.filterMap_map]
    exact congrFun (List.filterMap_eq_map (f := store.usage)) store.versions
  have counts : ∀ versions : List Nat,
      (((versions.map store.usage).filter fun item => decide (item.keyVersion ≠ target)).map
        EncryptionUsage.totalCount) =
      (versions.filter fun version => decide (version ≠ target)).map fun version =>
        store.records.countP fun record => decide (record.encryptionKeyVersion = version) := by
    intro versions
    rw [List.filter_map, List.map_map]
    exact List.map_congr_left fun version _ => totalCount_usage version
  rw [remainingCount, usages, counts, sum_countP_values _ _ (nodup_versions.filter _)]
  refine List.countP_congr fun record member => ?_
  simp [List.mem_filter, version_mem_versions member]

/-- No record is left under another version. -/
theorem outdatedCount_eq_zero {target : Nat} : store.outdatedCount target = 0 ↔
    ∀ recordId record, store.record? recordId = some record →
      record.encryptionKeyVersion = target := by
  rw [EncryptionStore.outdatedCount, List.countP_eq_zero]
  constructor
  · intro none recordId record found
    obtain rfl := recordId_of_record? found
    simpa using none record (mem_records.mpr found)
  · intro all record member
    simpa using all _ record (mem_records.mp member)

end Counts

/-! ## One commit -/

/-- The record is under the version, if it is there. -/
def Current (target : Nat) (recordId : RecordId) (store : EncryptionStore) : Prop :=
  ∀ record, store.record? recordId = some record → record.encryptionKeyVersion = target

/-- The other services seal under the version. -/
def SealsUnder (version : Nat) : EncryptionCall → Prop
  | .ordinary statements => ∀ statement ∈ statements, ∀ written ∈ statement.written?,
      ∀ envelope ∈ written.2, envelope.2 = version
  | _ => True

section Commit

variable {Key : Type} {settings : EncryptionSettings Key} {start : EncryptionStore}
  {db : EncryptionDb} {i : Nat} {log : List EncryptionEvent} {call : EncryptionCall}
  {answer : EncryptionAnswer} {writes : List (Write EncryptionKey EncryptionRow)}
  {recordId : RecordId} {keyring : MasterKeyring Key}

theorem record?_put {store : EncryptionStore} (before : List (Write EncryptionKey EncryptionRow))
    {row : EncryptedRecord} (same : row.recordId = recordId) :
    (applyAll store (before ++ [.put (.record row)])).record? recordId = some row := by
  show EncryptionRow.records.at? _ _ = _
  exact RowKind.at?_put before (congrArg EncryptionKey.record same)

theorem current_of_ordinary {statements : List OrdinaryStatement} {version : Nat}
    (sealsUnder : SealsUnder version (.ordinary statements)) {before after : Option EncryptionRow}
    (here : ∀ record, before = some (.record record) → record.encryptionKeyVersion = version)
    (changes : Relation.ReflTransGen (OrdinaryChange statements) before after) :
    ∀ record, after = some (.record record) → record.encryptionKeyVersion = version := by
  induction changes with
  | refl => exact here
  | tail _ change ih =>
      obtain ⟨statement, member, effect⟩ := change
      generalize isWritten : statement.written? = written at effect
      intro record isSome
      cases effect with
      | columns _ _ same =>
          obtain rfl := EncryptionRow.record.inj (Option.some.inj isSome)
          exact same.trans (ih _ rfl)
      | replaced new key was =>
          obtain rfl := EncryptionRow.record.inj (Option.some.inj isSome)
          exact sealsUnder statement member _ isWritten _ rfl
      | removed _ => cases isSome
      | business _ became =>
          obtain ⟨business, wrong⟩ := became _ isSome
          cases wrong

/-- **A record under the primary version** stays under it. -/
theorem current_of_commits (shared : ∀ process, settings.keyring process = keyring)
    (commits : Commits settings start db i log call answer writes)
    (sealsUnder : SealsUnder keyring.primaryVersion call)
    (current : Current keyring.primaryVersion recordId (db.stateAt start i)) :
    Current keyring.primaryVersion recordId (applyAll (db.stateAt start i) writes) := by
  have frame : ∀ {writes : List (Write EncryptionKey EncryptionRow)},
      EncryptionKey.record recordId ∉ touched EncryptionStore writes →
        Current keyring.primaryVersion recordId (applyAll (db.stateAt start i) writes) :=
    fun free record found => current record ((record?_frame free).symm.trans found)
  cases commits with
  | started distinct free known peppers =>
      cases peppers with
      | nothing =>
          refine frame fun isTouched => ?_
          rw [List.append_nil, mem_touched_keyWrites] at isTouched
          obtain ⟨record, -, wrong⟩ := isTouched
          cases wrong
      | @stored row made =>
          obtain ⟨nonce, pepper, isSealed⟩ := made.made
          have version := MasterKeyring.version_of_encryptWithAad isSealed
          rw [shared] at version
          intro record found
          by_cases isRow : row.recordId = recordId
          · rw [record?_put _ isRow] at found
            obtain rfl := Option.some.inj found
            exact version
          · refine frame (fun isTouched => ?_) record found
            rw [touched_append, List.mem_append, mem_touched_keyWrites] at isTouched
            rcases isTouched with ⟨added, -, wrong⟩ | isPepper
            · cases wrong
            · exact isRow (EncryptionKey.record.inj (List.mem_singleton.mp isPepper)).symm
  | pepper | idle | unrecorded => exact current
  | requested key waits target first free | recorded isThere =>
      refine frame fun isTouched => ?_
      cases List.mem_singleton.mp isTouched
  | @processed process _ _ _ _ _ job now remaining batch locks news processed jobId key =>
      by_cases member : ∃ record ∈ batch, record.recordId = recordId
      · obtain ⟨record, member, rfl⟩ := member
        obtain ⟨new, ⟨rotated, made, rfl⟩, isNew⟩ := processed.rewrites_record member
        intro record' found
        obtain rfl := Option.some.inj (isNew.symm.trans found)
        exact processed.target.trans (congrArg MasterKeyring.primaryVersion (shared process))
      · intro record found
        have apart : ∀ old ∈ batch, old.recordId ≠ recordId :=
          fun old isLoaded same => member ⟨old, isLoaded, same⟩
        exact current record ((processed.leaves_record apart).symm.trans found)
  | written changes =>
      intro record found
      have here := fun old isOld => current old (record?_eq_some.mpr isOld)
      exact current_of_ordinary sealsUnder here (changes (.record recordId)) record
        (record?_eq_some.mp found)

/-! ## Jobs that succeed -/

variable {jobId : Uuid}

/-- Beside batches, no commit lets a job succeed. -/
theorem succeeded_of_commits (commits : Commits settings start db i log call answer writes)
    (noBatch : ∀ jobId, answer ≠ .processed jobId) {job : KeyRotationJob}
    (found : (applyAll (db.stateAt start i) writes).job? jobId = some job)
    (succeeded : job.state = .succeeded) :
    ∃ job, (db.stateAt start i : EncryptionStore).job? jobId = some job ∧
      job.state = .succeeded := by
  have frame : EncryptionKey.job jobId ∉ touched EncryptionStore writes →
      ∃ job, (db.stateAt start i : EncryptionStore).job? jobId = some job ∧
        job.state = .succeeded :=
    fun free => ⟨job, (job?_frame free).symm.trans found, succeeded⟩
  -- the job that is put last is another one, or it has not succeeded
  have put : ∀ last : KeyRotationJob, writes = [.put (.job last)] → last.state ≠ .succeeded →
      ∃ job, (db.stateAt start i : EncryptionStore).job? jobId = some job ∧
        job.state = .succeeded := by
    rintro last rfl open_
    by_cases same : last.keyRotationJobId = jobId
    · have isLast : (applyAll (db.stateAt start i) [.put (.job last)]).job? jobId = some last :=
        job?_put [] same
      obtain rfl := Option.some.inj (isLast.symm.trans found)
      exact absurd succeeded open_
    · refine frame fun isTouched => ?_
      exact same (EncryptionKey.job.inj (List.mem_singleton.mp isTouched)).symm
  cases commits with
  | started distinct free known peppers =>
      refine frame fun isTouched => ?_
      rcases touched_of_started peppers isTouched with ⟨_, wrong⟩ | ⟨_, wrong, -⟩ <;> cases wrong
  | pepper | idle | unrecorded => exact frame List.not_mem_nil
  | requested key waits target first free =>
      refine put _ rfl fun same => ?_
      rw [waits] at same
      cases same
  | processed processed key => exact absurd rfl (noBatch _)
  | recorded isThere => exact put _ rfl fun same => by cases same
  | written changes =>
      have chain := changes (.job jobId)
      rw [RowKind.at?_eq_some.mp found] at chain
      exact ⟨job, RowKind.at?_eq_some.mpr
        (was_of_ordinaryChanges (fun _ => nofun) (fun _ => nofun) chain), succeeded⟩

/-- What a batch has counted: the records that are not under its version, in some earlier state
with what it has written itself. -/
structure Counted (settings : EncryptionSettings Key) (start : EncryptionStore) (db : EncryptionDb)
    (i : Nat) (writes : List (Write EncryptionKey EncryptionRow)) (jobId : Uuid) : Prop where
  batch : ∃ process workerId nonces job now batch locks news seen before,
    job.keyRotationJobId = jobId ∧ seen ≤ i ∧
      (∀ k ∈ touched EncryptionStore before, k ∈ touched EncryptionStore writes) ∧
      Processed settings (db.stateAt start i) process workerId nonces job now
        ((applyAll (db.stateAt start seen) before).outdatedCount job.targetKeyVersion) batch locks
          news ∧
      writes = batchWrites (claimed workerId now (now + rotationLease) job)
        (finishedJob workerId now news.length
          ((applyAll (db.stateAt start seen) before).outdatedCount job.targetKeyVersion) job)
        locks news

theorem counted_of_plays (plays : EncryptionPlays settings start db i [] log)
    (outcome : Outcome settings call answer log) (isBatch : answer = .processed jobId) :
    Counted settings start db i (logged EncryptionStatement.effects log) jobId := by
  cases outcome with
  | @processed process workerId acquired skippedJobs skipped nonces now s s' s'' rows usage rows'
      job batch rotated loads updates isClaimed target loaded rotates updated =>
      obtain ⟨job, locks, news, rfl, processed, writes⟩ :=
        processed_writes isClaimed target loaded rotates updated plays
      have parts := plays
      simp only [Db.plays_append] at parts
      obtain ⟨⟨-, ⟨⟨n, le, ran, -⟩, -⟩⟩, -⟩ := parts
      obtain ⟨isUsage, -⟩ := Prod.mk.inj (Option.some.inj ran.performed)
      rw [← isUsage, remainingCount_usage] at processed
      refine ⟨process, workerId, nonces, job, now, batch, locks, news, s', _,
        EncryptionAnswer.processed.inj isBatch, ran.le.trans le, fun k isTouched => ?_, processed,
        ?_⟩
      · rw [logged_append, logged_append, touched_append, touched_append]
        exact List.mem_append_left _ (List.mem_append_left _ isTouched)
      · rw [writes, ← isUsage, remainingCount_usage]
  | _ => cases isBatch

/-- **A batch that has counted nothing** leaves all records under its version. -/
theorem Counted.leaves_current
    (shared : ∀ process, settings.keyring process = keyring)
    (counted : Counted settings start db i writes jobId)
    (ended : ∀ job, (applyAll (db.stateAt start i) writes).job? jobId = some job →
      job.state = .succeeded)
    (since : ∀ seen ≤ i, Current keyring.primaryVersion recordId (db.stateAt start seen) →
      Current keyring.primaryVersion recordId (applyAll (db.stateAt start i) writes)) :
    Current keyring.primaryVersion recordId (applyAll (db.stateAt start i) writes) := by
  obtain ⟨process, workerId, nonces, job, now, batch, locks, news, seen, before, rfl, le, among,
    processed, isWritten⟩ := counted.batch
  have primary : job.targetKeyVersion = keyring.primaryVersion :=
    processed.target.trans (congrArg MasterKeyring.primaryVersion (shared process))
  by_cases member : ∃ record ∈ batch, record.recordId = recordId
  · obtain ⟨record, member, rfl⟩ := member
    obtain ⟨new, ⟨rotated, made, rfl⟩, isNew⟩ := processed.rewrites_record member
    intro record' found
    rw [isWritten] at found
    obtain rfl := Option.some.inj (isNew.symm.trans found)
    exact primary
  · -- the batch has not touched the record, and has counted it
    have last : (applyAll (db.stateAt start i) writes).job? job.keyRotationJobId =
        some (finishedJob workerId now news.length
          ((applyAll (db.stateAt start seen) before).outdatedCount job.targetKeyVersion) job) := by
      rw [isWritten, batchWrites]
      exact job?_put _ rfl
    have none :
        (applyAll (db.stateAt start seen) before).outdatedCount job.targetKeyVersion = 0 := by
      by_contra some
      have state := ended _ last
      rw [finishedJob, updatedJob, if_neg some] at state
      cases state
    refine since seen le fun record found => ?_
    refine (outdatedCount_eq_zero.mp none recordId record ?_).trans primary
    rw [record?_frame fun isTouched => ?_]
    · exact found
    · have isBatch := among _ isTouched
      rw [isWritten] at isBatch
      rcases mem_touched_batchWrites.mp isBatch with
        wrong | ⟨row, isLock, same⟩ | ⟨row, isNew, same⟩ | wrong
      · cases wrong
      · exact member ⟨row, processed.locked.perm.mem_iff.mp isLock,
          (EncryptionKey.record.inj same).symm⟩
      · have isId := List.mem_map_of_mem (f := EncryptedRecord.recordId) isNew
        rw [recordIds_of_rewrites processed.rewrites] at isId
        obtain ⟨old, isOld, named⟩ := List.mem_map.mp isId
        exact member ⟨old, isOld, named.trans (EncryptionKey.record.inj same).symm⟩
      · cases wrong

/-- A batch lets no other job succeed. -/
theorem Counted.other_jobs {otherId : Uuid}
    (counted : Counted settings start db i writes jobId) (apart : otherId ≠ jobId) :
    (applyAll (db.stateAt start i) writes).job? otherId =
      (db.stateAt start i : EncryptionStore).job? otherId := by
  obtain ⟨process, workerId, nonces, job, now, batch, locks, news, seen, before, rfl, -, -, -,
    isWritten⟩ := counted.batch
  refine job?_frame fun isTouched => ?_
  rw [isWritten] at isTouched
  rcases mem_touched_batchWrites.mp isTouched with same | ⟨_, -, wrong⟩ | ⟨_, -, wrong⟩ | same
  · exact apart (EncryptionKey.job.inj same)
  · cases wrong
  · cases wrong
  · exact apart (EncryptionKey.job.inj same)

end Commit

/-! ## Whole runs -/

/-- The other services that commit have sealed under the version. -/
def WritersSeal (version : Nat) (world : EncryptionWorld) : DbAct EncryptionCall → Prop
  | .onDb (.commit id) => ∀ txn ∈ world.db.txns[id]?, SealsUnder version txn.call
  | _ => True

variable {Key : Type} {settings : EncryptionSettings Key} {initial : EncryptionStore → Prop}
  {world later : EncryptionWorld} {keyring : MasterKeyring Key}

/-- No job has succeeded. -/
def NoneSucceeded (store : EncryptionStore) : Prop :=
  ∀ jobId job, store.job? jobId = some job → job.state ≠ .succeeded

section Account

variable {start : EncryptionStore} {db : EncryptionDb}
  (account : EncryptionAccount settings
    (fun call _ _ => SealsUnder keyring.primaryVersion call) start db)
  (shared : ∀ process, settings.keyring process = keyring)
include account shared

/-- A record under the primary version stays under it. -/
theorem current_later {recordId : RecordId} {n m : Nat} (le : n ≤ m) (bound : m ≤ db.history.length)
    (here : Current keyring.primaryVersion recordId (db.stateAt start n)) :
    Current keyring.primaryVersion recordId (db.stateAt start m) := by
  refine account.induct (P := Current keyring.primaryVersion recordId) le bound here ?_
  intro i id txn answer _ _ committed before
  exact current_of_commits shared (commits_of_committed committed) committed.admits before

/-- Where a job has succeeded, all records are under the primary version. -/
theorem current_of_succeeded (fresh : NoneSucceeded start) {m : Nat}
    (bound : m ≤ db.history.length) {jobId : Uuid} {job : KeyRotationJob}
    (found : (db.stateAt start m : EncryptionStore).job? jobId = some job)
    (succeeded : job.state = .succeeded) (recordId : RecordId) :
    Current keyring.primaryVersion recordId (db.stateAt start m) := by
  induction m generalizing jobId job with
  | zero => exact absurd succeeded (fresh jobId job found)
  | succ m ih =>
      obtain ⟨id, txn, answer, committed⟩ := account.commit (Nat.lt_of_succ_le bound)
      have onwards : ∀ n ≤ m,
          Current keyring.primaryVersion recordId (db.stateAt start n) →
            Current keyring.primaryVersion recordId (db.stateAt start (m + 1)) :=
        fun n le => current_later account shared (le.trans (Nat.le_succ m)) bound
      have after := committed.after
      rw [after] at found onwards ⊢
      by_cases isBatch : ∃ batchId, answer = .processed batchId
      · obtain ⟨batchId, isBatch⟩ := isBatch
        have counted := counted_of_plays committed.plays committed.outcome isBatch
        by_cases same : jobId = batchId
        · subst same
          refine counted.leaves_current shared (fun last isLast => ?_) onwards
          obtain rfl := Option.some.inj (found.symm.trans isLast)
          exact succeeded
        · rw [counted.other_jobs same] at found
          exact onwards m le_rfl (ih (Nat.le_of_succ_le bound) found succeeded)
      · obtain ⟨old, isOld, hasSucceeded⟩ := succeeded_of_commits (commits_of_committed committed)
          (fun batchId same => isBatch ⟨batchId, same⟩) found succeeded
        exact onwards m le_rfl (ih (Nat.le_of_succ_le bound) isOld hasSucceeded)

end Account

/-- **A rotation that has succeeded lets the old keys go.** When all processes share one keyring,
and the other services seal under its primary version, then in every state of a run in which a
rotation has succeeded, and in every later one, all records are under the primary version. -/
theorem succeeded_retires (shared : ∀ process, settings.keyring process = keyring)
    (fresh : ∀ store, initial store → NoneSucceeded store)
    (reached : ((encryptionSystem settings initial).restrict
      (WritersSeal keyring.primaryVersion)).Reachable world)
    (run : ((encryptionSystem settings initial).restrict
      (WritersSeal keyring.primaryVersion)).Leads world later)
    {jobId : Uuid} {job : KeyRotationJob} (found : world.db.state.job? jobId = some job)
    (succeeded : job.state = .succeeded) :
    ∀ recordId record, later.db.state.record? recordId = some record →
      record.encryptionKeyVersion = keyring.primaryVersion := by
  have commits : ∀ (world : EncryptionWorld) (id : Nat) (txn : EncryptionTxn),
      WritersSeal keyring.primaryVersion world (.onDb (.commit id)) →
        world.db.txns[id]? = some txn → SealsUnder keyring.primaryVersion txn.call :=
    fun _ _ txn allowed found => allowed txn found
  have accounted : ∃ start, initial start ∧ EncryptionAccount settings
      (fun call _ _ => SealsUnder keyring.primaryVersion call) start world.db :=
    Service.Account.of_reachable tellable tells_anything ends_program commits reached
  obtain ⟨start, isInitial, before⟩ := accounted
  have account := before.leads tellable tells_anything ends_program commits run
  obtain ⟨bound, past⟩ := before.past run
  intro recordId
  rw [past] at found
  rw [account.chronicle.present]
  refine current_later account shared bound le_rfl ?_
  exact current_of_succeeded account shared (fresh start isInitial) bound found succeeded recordId

/-! ## One record -/

instance (version : Nat) : ∀ call : EncryptionCall, Decidable (SealsUnder version call)
  | .ordinary statements => inferInstanceAs (Decidable (∀ statement ∈ statements,
      ∀ written ∈ statement.written?, ∀ envelope ∈ written.2, envelope.2 = version))
  | .ensureKeyring _ _ _ _ | .idempotencyPepper _ | .requestRotation _ _ _
  | .processRotationBatch _ _ _ _ _ _ | .recordFailure _ _ => isTrue trivial

instance (version : Nat) (world : EncryptionWorld) :
    ∀ act : DbAct EncryptionCall, Decidable (WritersSeal version world act)
  | .tick _ | .onDb (.begin _) | .onDb (.clock _ _) | .onDb (.snapshot _) | .onDb (.perform _)
  | .onDb (.check _) | .onDb (.abort _) => isTrue trivial
  | .onDb (.commit id) =>
      inferInstanceAs (Decidable (∀ txn ∈ world.db.txns[id]?, SealsUnder version txn.call))

/-- A rotation succeeds, and the record is under the new key. -/
theorem succeeded_retires_factor : ∃ world job record,
    oneRecord.exec oneRecordWorld (rotationRequested ++ rotated) = some world ∧
      world.db.state.job? 5 = some job ∧ job.state = .succeeded ∧
        world.db.state.record? (.mfa 3) = some record ∧ record.encryptionKeyVersion = 2 := by
  have ran : (oneRecord.exec oneRecordWorld (rotationRequested ++ rotated)).any (fun world => decide
      ((world.db.state.job? 5).map KeyRotationJob.state = some .succeeded ∧
        (world.db.state.record? (.mfa 3)).isSome = true)) = true := by
    decide +kernel
  have along : oneRecord.Along (WritersSeal 2) oneRecordWorld (rotationRequested ++ rotated) := by
    decide +kernel
  obtain ⟨world, done, states⟩ := (Option.any_eq_true _ _).mp ran
  obtain ⟨ended, there⟩ := of_decide_eq_true states
  obtain ⟨job, isThere, succeeded⟩ := Option.map_eq_some_iff.mp ended
  obtain ⟨record, found⟩ := Option.isSome_iff_exists.mp there
  have fresh : ∀ store, store = Table.empty.put (.record oldFactor) → NoneSucceeded store := by
    rintro store rfl jobId job wrong
    cases wrong
  refine ⟨world, job, record, done, isThere, succeeded, found, ?_⟩
  have reached : (oneRecord.restrict (WritersSeal 2)).Reachable world :=
    ⟨_, ⟨0, _, rfl, rfl⟩, System.leads_restrict_of_exec done along⟩
  have shared : ∀ process, bothKeys.keyring process = twoKeys := fun _ => rfl
  exact succeeded_retires shared fresh reached (System.Leads.refl world) isThere succeeded (.mfa 3)
    record found

end OpsComposer.Encryption
