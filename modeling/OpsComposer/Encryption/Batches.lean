import OpsComposer.Encryption.Outcomes

/-!
# What a rotation batch commits

A batch claims a job, locks the records that it has loaded, rewrites each of them, and leaves
the job with its count.  The job and the records that it has locked are, until it commits, as
it has found them; so what it commits is a function of the state just before
(`processed_writes`).
-/

set_option autoImplicit false

namespace OpsComposer.Encryption

open Domain (Uuid)
open Foundations Services RowStore

section Rows

variable {store : EncryptionStore} {recordId : RecordId}

/-! ## Rows after writes -/

/-- The writes of records. -/
def recordWrites (rows : List EncryptedRecord) : List (Write EncryptionKey EncryptionRow) :=
  rows.map fun row => .put (.record row)

/-- The writes of a batch: the job as it is claimed and as it is left, and between them the
records as they are locked and as they are rewritten. -/
def batchWrites (claim last : KeyRotationJob) (locks news : List EncryptedRecord) :
    List (Write EncryptionKey EncryptionRow) :=
  .put (.job claim) :: recordWrites locks ++ recordWrites news ++ [.put (.job last)]

theorem mem_touched_recordWrites {rows : List EncryptedRecord} {k : EncryptionKey} :
    k ∈ touched EncryptionStore (recordWrites rows) ↔
      ∃ row ∈ rows, k = .record row.recordId := by
  rw [mem_touched, recordWrites]
  constructor
  · rintro ⟨write, isWritten, rfl⟩
    obtain ⟨row, member, rfl⟩ := List.mem_map.mp isWritten
    exact ⟨row, member, rfl⟩
  · rintro ⟨row, member, rfl⟩
    exact ⟨_, List.mem_map_of_mem member, rfl⟩

theorem mem_touched_batchWrites {claim last : KeyRotationJob} {locks news : List EncryptedRecord}
    {k : EncryptionKey} : k ∈ touched EncryptionStore (batchWrites claim last locks news) ↔
      k = .job claim.keyRotationJobId ∨ (∃ row ∈ locks, k = .record row.recordId) ∨
        (∃ row ∈ news, k = .record row.recordId) ∨ k = .job last.keyRotationJobId := by
  have ends : ∀ job : KeyRotationJob,
      touched EncryptionStore [.put (.job job)] = [.job job.keyRotationJobId] := fun _ => rfl
  have first : batchWrites claim last locks news =
      [.put (.job claim)] ++ recordWrites locks ++ recordWrites news ++ [.put (.job last)] := rfl
  rw [first]
  simp only [touched_append, List.mem_append, mem_touched_recordWrites, ends, List.mem_singleton,
    or_assoc]

/-- Of records with distinct keys each is seen after the writes. -/
theorem record?_recordWrites {rows : List EncryptedRecord}
    (distinct : (rows.map EncryptedRecord.recordId).Nodup) {row : EncryptedRecord}
    (member : row ∈ rows) :
    (applyAll store (recordWrites rows)).record? row.recordId = some row := by
  refine RowKind.at?_eq_some.mpr (lookup_applyAll_uniform store ?_ ?_)
  · exact mem_touched_recordWrites.mpr ⟨row, member, rfl⟩
  · intro write isWritten same
    obtain ⟨other, isOther, rfl⟩ := List.mem_map.mp isWritten
    obtain rfl : other = row :=
      List.inj_on_of_nodup_map distinct isOther member (EncryptionKey.record.inj same)
    rfl

/-- **Frame.** -/
theorem record?_frame {writes : List (Write EncryptionKey EncryptionRow)}
    (free : EncryptionKey.record recordId ∉ touched EncryptionStore writes) :
    (applyAll store writes).record? recordId = store.record? recordId :=
  RowKind.at?_frame free

theorem job?_frame {writes : List (Write EncryptionKey EncryptionRow)} {jobId : Uuid}
    (free : EncryptionKey.job jobId ∉ touched EncryptionStore writes) :
    (applyAll store writes).job? jobId = store.job? jobId :=
  RowKind.at?_frame free

/-- The job that is put last is the one that is seen. -/
theorem job?_put (before : List (Write EncryptionKey EncryptionRow)) {job : KeyRotationJob}
    {jobId : Uuid} (key : job.keyRotationJobId = jobId) :
    (applyAll store (before ++ [.put (.job job)])).job? jobId = some job := by
  show EncryptionRow.jobs.at? _ _ = _
  exact RowKind.at?_put before (congrArg EncryptionKey.job key)

end Rows

section Writes

variable {Key : Type} {settings : EncryptionSettings Key} {db : EncryptionDb}
  {start : EncryptionStore} {i : Nat} {before : List (Write EncryptionKey EncryptionRow)}

/-- A log of the service that has run up to the state after `i` commits. -/
abbrev EncryptionPlays (settings : EncryptionSettings Key) (start : EncryptionStore)
    (db : EncryptionDb) (i : Nat) (before : List (Write EncryptionKey EncryptionRow))
    (log : List EncryptionEvent) : Prop :=
  Db.Plays (encryptionService settings) EncryptionStatement.effects start db i before log

/-! ## Loads -/

/-- Rows that are all records. -/
theorem map_records {rows : List EncryptionRow}
    (only : ∀ row ∈ rows, ∃ record : EncryptedRecord, row = .record record) :
    rows = (rows.filterMap EncryptionRow.records.unwrap).map .record := by
  induction rows with
  | nil => rfl
  | cons row rows ih =>
      obtain ⟨record, rfl⟩ := only row (List.mem_cons_self ..)
      have rest := ih fun row member => only row (List.mem_cons_of_mem _ member)
      have here : EncryptionRow.records.unwrap (.record record) = some record := rfl
      rw [List.filterMap_cons_some here, List.map_cons, ← rest]

/-- The records that a batch has loaded: it has locked them, and they stay as they are until
it commits. -/
structure Locked (target : Nat) (store : EncryptionStore) (batch locks : List EncryptedRecord) :
    Prop where
  perm : locks.Perm batch
  distinct : (batch.map EncryptedRecord.recordId).Nodup
  isThere : ∀ record ∈ batch, store.record? record.recordId = some record
  outdated : ∀ record ∈ batch, record.encryptionKeyVersion ≠ target

theorem loaded_writes {target limit : Nat} {skipped : List RecordId}
    {kinds : List EncryptedRecordKind} {batch : List EncryptedRecord}
    {loads : List EncryptionEvent} (plays : EncryptionPlays settings start db i before loads)
    (loaded : Loaded target limit skipped kinds batch loads)
    (clean : ∀ recordId, EncryptionKey.record recordId ∉ touched EncryptionStore before) :
    ∃ locks, Locked target (db.stateAt start i) batch locks ∧
      logged EncryptionStatement.effects loads = recordWrites locks := by
  induction loaded with
  | nil => exact ⟨[], ⟨.refl _, List.nodup_nil, nofun, nofun⟩, rfl⟩
  | @none kind kinds batch rows seen events empty rest ih =>
      obtain ⟨⟨n, -, ran, -⟩, plays⟩ := plays
      obtain ⟨-, -, rows_iff⟩ := perform_load ran.performed
      have wrapped : rows = (rows.filterMap EncryptionRow.records.unwrap).map .record :=
        map_records fun row member => ((rows_iff row).mp member).imp fun _ holds => holds.1
      have perm : (recordsOf rows).Perm (rows.filterMap EncryptionRow.records.unwrap) :=
        List.perm_insertionSort ..
      rw [empty] at perm
      have nothing : rows = [] := by rw [wrapped, List.nil_perm.mp perm, List.map_nil]
      subst nothing
      obtain ⟨locks, locked, writes⟩ := ih (by simpa [EncryptionStatement.effects] using plays)
      exact ⟨locks, locked, writes⟩
  | @some kind kinds rows seen nonempty =>
      obtain ⟨⟨n, -, ran, kept⟩, -⟩ := plays
      obtain ⟨-, nodup, rows_iff⟩ := perform_load ran.performed
      have wrapped : rows = (rows.filterMap EncryptionRow.records.unwrap).map .record :=
        map_records fun row member => ((rows_iff row).mp member).imp fun _ holds => holds.1
      have perm : (rows.filterMap EncryptionRow.records.unwrap).Perm (recordsOf rows) :=
        (List.perm_insertionSort ..).symm
      have isRow : ∀ record ∈ recordsOf rows, EncryptionRow.record record ∈ rows := by
        intro record member
        rw [wrapped]
        exact List.mem_map_of_mem (perm.mem_iff.mpr member)
      have isThere : ∀ record ∈ recordsOf rows,
          (applyAll (db.stateAt start n) before).record? record.recordId = some record := by
        intro record member
        obtain ⟨other, same, found, -⟩ := (rows_iff _).mp (isRow record member)
        obtain rfl := EncryptionRow.record.inj same
        exact found
      refine ⟨_, ⟨perm, ?_, ?_, ?_⟩, ?_⟩
      · refine List.Nodup.map_on (fun record member other member' same => ?_) ?_
        · have found := isThere record member
          rw [same, isThere other member'] at found
          exact (Option.some.inj found).symm
        · refine (List.Perm.nodup_iff perm).mp (List.Nodup.of_map EncryptionRow.record ?_)
          rw [← wrapped]
          exact nodup
      · intro record member
        have touches : EncryptionKey.record record.recordId ∈ touched EncryptionStore
            (before ++ EncryptionStatement.effects (.loadRecords kind target limit skipped) rows) :=
          mem_touched.mpr ⟨.put (.record record), List.mem_append_right _
            (List.mem_map_of_mem (isRow record member)), rfl⟩
        have found := isThere record member
        rw [record?_frame (clean _)] at found
        exact (RowKind.at?_congr (kept _ touches)).symm.trans found
      · intro record member
        obtain ⟨other, same, -, isOutdated, -⟩ := (rows_iff _).mp (isRow record member)
        obtain rfl := EncryptionRow.record.inj same
        exact (of_decide_eq_true isOutdated).2
      · rw [logged_ran, logged_nil, List.append_nil]
        show rows.map Write.put = _
        rw [recordWrites]
        conv_lhs => rw [wrapped]
        rw [List.map_map]
        rfl

/-! ## Rewrites -/

/-- What a batch leaves of a record: its re-encryption under the target version. -/
def Reencrypted (settings : EncryptionSettings Key) (process : Nat) (nonces : RecordId → Nonce)
    (target now : Nat) (record new : EncryptedRecord) : Prop :=
  ∃ rotated, reencrypt settings.aead (settings.keyring process) (nonces record.recordId) target
      record = some rotated ∧
    new = rewritten rotated.encryptedPayload target now record

theorem recordId_of_reencrypt {aead : Aead Key} {keyring : MasterKeyring Key} {nonce : Nonce}
    {target : Nat} {record rotated : EncryptedRecord}
    (made : reencrypt aead keyring nonce target record = some rotated) :
    rotated.recordId = record.recordId := by
  unfold reencrypt at made
  split at made
  · obtain ⟨secret, -, made⟩ := Option.bind_eq_some_iff.mp made
    obtain ⟨envelope, -, same⟩ := Option.bind_eq_some_iff.mp made
    exact Option.some.inj same ▸ rfl
  · obtain ⟨plaintext, -, made⟩ := Option.bind_eq_some_iff.mp made
    obtain ⟨sealed, -, same⟩ := Option.bind_eq_some_iff.mp made
    exact Option.some.inj same ▸ rfl

/-- The updates of a batch rewrite the records that it has locked, each once. -/
theorem updated_writes {process : Nat} {nonces : RecordId → Nonce} {target now : Nat}
    {batch rotated : List EncryptedRecord} {updates : List EncryptionEvent}
    (updated : Updated target now rotated updates)
    (rotates : List.Forall₂ (fun record image => reencrypt settings.aead (settings.keyring process)
      (nonces record.recordId) target record = some image) batch rotated)
    (distinct : (batch.map EncryptedRecord.recordId).Nodup)
    (shows : ∀ record ∈ batch, ∀ store : EncryptionStore,
      (applyAll store before).record? record.recordId = some record)
    (plays : EncryptionPlays settings start db i before updates) :
    ∃ news, List.Forall₂ (Reencrypted settings process nonces target now) batch news ∧
      logged EncryptionStatement.effects updates = recordWrites news := by
  induction updated generalizing batch before with
  | nil =>
      obtain rfl := List.forall₂_nil_right_iff.mp rotates
      exact ⟨[], .nil, rfl⟩
  | @cons image images rows seen events rest ih =>
      obtain ⟨record, records, made, others, rfl⟩ := List.forall₂_cons_right_iff.mp rotates
      obtain ⟨⟨n, -, ran, -⟩, plays⟩ := plays
      obtain ⟨fresh, distinct⟩ := List.nodup_cons.mp distinct
      have same := recordId_of_reencrypt made
      have shown : ∀ store : EncryptionStore,
          (applyAll store before).record? image.recordId = some record := fun store =>
        same ▸ shows record (List.mem_cons_self ..) store
      rcases perform_setRecord (f := rewritten image.encryptedPayload target now) (fun _ => rfl)
          ran.performed with ⟨old, isThere, -, rfl, -⟩ | ⟨-, -, unmet⟩
      · obtain rfl : record = old := Option.some.inj ((shown _).symm.trans isThere)
        have still : ∀ other ∈ records, ∀ store : EncryptionStore, (applyAll store (before ++
            EncryptionStatement.effects (.updateRecord image.recordId image.encryptedPayload target
              now) [.record (rewritten image.encryptedPayload target now record)])).record?
                other.recordId = some other := by
          intro other member store
          have apart : EncryptionRow.key (.record (rewritten image.encryptedPayload target now
              record)) ≠ .record other.recordId := fun collides => fresh
            (List.mem_map.mpr ⟨other, member, (EncryptionKey.record.inj collides).symm⟩)
          exact (RowKind.at?_put_other apart).trans
            (shows other (List.mem_cons_of_mem _ member) store)
        obtain ⟨news, related, writes⟩ := ih others distinct still plays
        refine ⟨_, .cons ⟨image, made, rfl⟩ related, ?_⟩
        rw [logged_ran, writes]
        rfl
      · exact absurd (unmet record record (shown _) rfl (shown _)) (by simp)

/-- **What a batch commits**: the job that it has claimed, the records that it has locked, the
records that it has rewritten, and the job with its count. -/
structure Processed (settings : EncryptionSettings Key) (store : EncryptionStore) (process : Nat)
    (workerId : String) (nonces : RecordId → Nonce) (job : KeyRotationJob) (now remaining : Nat)
    (batch locks news : List EncryptedRecord) : Prop where
  isThere : store.job? job.keyRotationJobId = some job
  claims : claimable now job = true
  target : job.targetKeyVersion = (settings.keyring process).primaryVersion
  locked : Locked job.targetKeyVersion store batch locks
  rewrites : List.Forall₂ (Reencrypted settings process nonces job.targetKeyVersion now) batch news

/-- The job as a batch leaves it. -/
def finishedJob (workerId : String) (now processed remaining : Nat) (job : KeyRotationJob) :
    KeyRotationJob :=
  updatedJob (if remaining = 0 then .succeeded else .pending) processed remaining now none none
    (claimed workerId now (now + rotationLease) job)

theorem processed_writes {process : Nat} {workerId : String} {acquired : Bool}
    {skippedJobs : List Uuid} {skipped : List RecordId} {nonces : RecordId → Nonce}
    {now s s' s'' : Nat} {rows usage rows' : List EncryptionRow} {claim : KeyRotationJob}
    {batch rotated : List EncryptedRecord} {loads updates : List EncryptionEvent}
    (isClaimed : firstJob? rows = some claim)
    (target : claim.targetKeyVersion = (settings.keyring process).primaryVersion)
    (loaded : Loaded claim.targetKeyVersion settings.batchSize skipped recordKinds batch loads)
    (rotates : (batch.mapM fun record => reencrypt settings.aead (settings.keyring process)
      (nonces record.recordId) claim.targetKeyVersion record) = some rotated)
    (updated : Updated claim.targetKeyVersion now rotated updates)
    (plays : EncryptionPlays settings start db i []
      ([.clock now,
          .ran (.claimRotationJob workerId now (now + rotationLease) acquired skippedJobs) rows s]
        ++ loads ++ updates ++ [.ran .usage usage s'] ++
        [.ran (.updateRotationJob claim.keyRotationJobId
            (if remainingCount claim.targetKeyVersion (usagesOf usage) = 0 then .succeeded
              else .pending)
            rotated.length (remainingCount claim.targetKeyVersion (usagesOf usage)) now none none)
            rows' s''])) :
    ∃ job locks news, claim = claimed workerId now (now + rotationLease) job ∧
      Processed settings (db.stateAt start i) process workerId nonces job now
        (remainingCount job.targetKeyVersion (usagesOf usage)) batch locks news ∧
      logged EncryptionStatement.effects
          ([.clock now, .ran (.claimRotationJob workerId now (now + rotationLease) acquired
              skippedJobs) rows s] ++ loads ++ updates ++ [.ran .usage usage s'] ++
            [.ran (.updateRotationJob claim.keyRotationJobId
                (if remainingCount claim.targetKeyVersion (usagesOf usage) = 0 then .succeeded
                  else .pending)
                rotated.length (remainingCount claim.targetKeyVersion (usagesOf usage)) now none
                none) rows' s'']) =
        batchWrites claim (finishedJob workerId now news.length
          (remainingCount job.targetKeyVersion (usagesOf usage)) job) locks news := by
  simp only [Db.plays_append] at plays
  obtain ⟨⟨⟨⟨⟨⟨n, before, ran, kept⟩, -⟩, loadsPlay⟩, updatesPlay⟩, -⟩, ⟨n', -, ran', -⟩, -⟩ := plays
  rcases perform_claim ran.performed with ⟨job, isThere, claims, rfl, -⟩ | ⟨rfl, -⟩
  · obtain rfl : claimed workerId now (now + rotationLease) job = claim := Option.some.inj isClaimed
    have still := kept (.job job.keyRotationJobId) (List.mem_cons_self ..)
    have first : logged EncryptionStatement.effects
        [.clock now, .ran (.claimRotationJob workerId now (now + rotationLease) acquired skippedJobs)
          [.job (claimed workerId now (now + rotationLease) job)] s] =
        [.put (.job (claimed workerId now (now + rotationLease) job))] := rfl
    simp only [List.nil_append, logged_append, first] at loadsPlay updatesPlay ran'
    obtain ⟨locks, locked, locksWritten⟩ := loaded_writes loadsPlay loaded fun recordId member => by
      simp [touched, written, RowStore.key, EncryptionRow.key] at member
    rw [locksWritten] at updatesPlay ran'
    have distinct : (locks.map EncryptedRecord.recordId).Nodup :=
      (locked.perm.map _).nodup_iff.mpr locked.distinct
    obtain ⟨news, related, newsWritten⟩ := updated_writes updated (Text.mapM_eq_some.mp rotates)
      locked.distinct (fun record member store => by
        rw [applyAll_append]
        exact record?_recordWrites distinct (locked.perm.mem_iff.mpr member)) updatesPlay
    have counted : logged EncryptionStatement.effects [.ran .usage usage s'] = [] := rfl
    rw [newsWritten, counted, List.append_nil] at ran'
    have sizes : rotated.length = news.length :=
      (Text.mapM_eq_some.mp rotates).length_eq.symm.trans related.length_eq
    -- the job has been claimed by this transaction, and nothing later is about it
    have current : ∀ store : EncryptionStore, (applyAll store
        ([.put (.job (claimed workerId now (now + rotationLease) job))] ++ recordWrites locks ++
          recordWrites news)).job? job.keyRotationJobId =
        some (claimed workerId now (now + rotationLease) job) := by
      intro store
      rw [List.append_assoc, applyAll_append, job?_frame ?_]
      · exact job?_put [] rfl
      · rw [touched_append, List.mem_append, mem_touched_recordWrites, mem_touched_recordWrites]
        rintro (⟨_, -, same⟩ | ⟨_, -, same⟩) <;> cases same
    have only : ∀ row : KeyRotationJob,
        decide (row.keyRotationJobId = job.keyRotationJobId) = true →
          row.keyRotationJobId = job.keyRotationJobId := fun _ => of_decide_eq_true
    rcases perform_setJob (f := updatedJob _ _ _ _ _ _) (fun _ => rfl) only ran'.performed with
      ⟨row, isRow, -, rfl, -⟩ | ⟨-, -, unmet⟩
    · obtain rfl : claimed workerId now (now + rotationLease) job = row :=
        Option.some.inj ((current _).symm.trans isRow)
      refine ⟨job, locks, news, rfl, ⟨?_, claims, target, locked, related⟩, ?_⟩
      · exact (RowKind.at?_congr still).symm.trans isThere
      · simp only [logged_append, first, locksWritten, newsWritten, counted, List.append_nil, sizes]
        rfl
    · have missed := unmet _ _ (current _) (decide_eq_true rfl) (current _)
      exact absurd (of_decide_eq_false missed) (fun apart => apart rfl)
  · cases isClaimed

end Writes

end OpsComposer.Encryption
