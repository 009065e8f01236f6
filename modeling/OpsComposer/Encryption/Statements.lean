import OpsComposer.Services.Encryption

/-!
# What the statements on keys and encrypted records do

The rows that each statement returns and the writes that it makes.  The writes are told by
the returned rows (`tellable`), so that the log of a transaction has all that it has written.
-/

set_option autoImplicit false

namespace OpsComposer.Encryption

open Domain (Uuid)
open Foundations Services RowStore

section Perform

variable {Key : Type} {settings : EncryptionSettings Key} {snapshot current : EncryptionStore}
  {clash : EncryptionRow → EncryptionRow → Bool} {shown : List EncryptionRow}
  {writes : List (Write EncryptionKey EncryptionRow)}

/-! ## One row -/

/-- An insert returns its row, and writes it. -/
theorem perform_insert {row : EncryptionRow}
    (done : (Command.insert row false : EncryptionCommand).perform clash snapshot current =
      some (shown, writes)) :
    RowStore.lookup current row.key = none ∧ shown = [row] ∧ writes = [.put row] := by
  obtain ⟨free, ⟨-, nothing, -⟩ | ⟨-, isShown, isWritten⟩⟩ := Command.perform_insert done
  · cases nothing
  · exact ⟨free, isShown, isWritten⟩

/-- An update of one record. -/
theorem perform_setRecord {recordId : RecordId} {condition : EncryptedRecord → Bool}
    {f : EncryptedRecord → EncryptedRecord} (keeps : ∀ row, (f row).recordId = row.recordId)
    (done : (setRecord recordId condition f keeps).perform clash snapshot current =
      some (shown, writes)) :
    (∃ row : EncryptedRecord, current.record? recordId = some row ∧ condition row = true ∧
        shown = [.record (f row)] ∧ writes = [.put (.record (f row))]) ∨
      (shown = [] ∧ writes = [] ∧
        ∀ old new : EncryptedRecord, snapshot.record? recordId = some old → condition old = true →
          current.record? recordId = some new → condition new = false) := by
  have only : ∀ row : EncryptedRecord, (decide (row.recordId = recordId) && condition row) = true →
      EncryptionRow.key (EncryptionRow.records.wrap row) = .record recordId := fun row holds =>
    congrArg EncryptionKey.record (of_decide_eq_true (Bool.and_eq_true_iff.mp holds).1)
  have isIt : ∀ (store : EncryptionStore) (row : EncryptedRecord),
      store.record? recordId = some row → decide (row.recordId = recordId) = true := by
    intro store row found
    exact decide_eq_true (EncryptionKey.record.inj
      (RowStore.key_of_lookup (RowKind.at?_eq_some.mp found)))
  rcases RowKind.perform_one (EncryptionRow.records.map_wrap f) only done
    with ⟨old, new, -, -, isNew, holds, isShown, isWritten⟩ | ⟨nothing, none, unmet⟩
  · exact .inl ⟨new, isNew, (Bool.and_eq_true_iff.mp holds).2, isShown, isWritten⟩
  · refine .inr ⟨nothing, none, fun old new isOld held isNew => ?_⟩
    have missed := unmet old new isOld
      (Bool.and_eq_true_iff.mpr ⟨isIt snapshot old isOld, held⟩) isNew
    rw [isIt current new isNew, Bool.true_and] at missed
    exact missed

/-- An insert of a record that takes the place of an old one. -/
theorem perform_upsertRecord {row : EncryptedRecord} {f : EncryptedRecord → EncryptedRecord}
    (keeps : ∀ row, (f row).recordId = row.recordId)
    (done : (upsertRecord row f keeps).perform clash snapshot current = some (shown, writes)) :
    (current.record? row.recordId = none ∧ shown = [.record row] ∧
        writes = [.put (.record row)]) ∨
      ∃ old : EncryptedRecord, current.record? row.recordId = some old ∧
        shown = [.record (f old)] ∧ writes = [.put (.record (f old))] := by
  rcases Command.perform_upsert done with ⟨taken, rfl, rfl⟩ | ⟨other, taken, rfl, rfl⟩
  · have absent : current.record? row.recordId = none :=
      Option.bind_eq_none_iff.mpr fun other isThere => nomatch taken.symm.trans isThere
    exact .inl ⟨absent, rfl, rfl⟩
  · have same : other.key = .record row.recordId := RowStore.key_of_lookup taken
    cases other with
    | record old => exact .inr ⟨old, RowKind.at?_eq_some.mpr taken, rfl, rfl⟩
    | registry _ | job _ | masterKeyCheck _ | business _ | usage _ => cases same

/-- An update of one job. -/
theorem perform_setJob {jobId : Uuid} {condition : KeyRotationJob → Bool}
    {f : KeyRotationJob → KeyRotationJob}
    (keeps : ∀ row, (f row).keyRotationJobId = row.keyRotationJobId)
    (only : ∀ row, condition row = true → row.keyRotationJobId = jobId)
    (done : (setJob condition f keeps).perform clash snapshot current = some (shown, writes)) :
    (∃ row : KeyRotationJob, current.job? jobId = some row ∧ condition row = true ∧
        shown = [.job (f row)] ∧ writes = [.put (.job (f row))]) ∨
      (shown = [] ∧ writes = [] ∧
        ∀ old new : KeyRotationJob, snapshot.job? jobId = some old → condition old = true →
          current.job? jobId = some new → condition new = false) := by
  have key : ∀ row : KeyRotationJob, condition row = true →
      EncryptionRow.key (EncryptionRow.jobs.wrap row) = .job jobId := fun row holds =>
    congrArg EncryptionKey.job (only row holds)
  rcases RowKind.perform_one (EncryptionRow.jobs.map_wrap f) key done
    with ⟨old, new, -, -, isNew, holds, isShown, isWritten⟩ | none
  · exact .inl ⟨new, isNew, holds, isShown, isWritten⟩
  · exact .inr none

/-! ## Claims and loads -/

/-- There is at most one candidate. -/
theorem candidates_one (store : EncryptionStore) (now : Nat) (acquired : Bool)
    (skipped : List Uuid) :
    ∃ jobId, ∀ candidate ∈ candidates store now acquired skipped, candidate = jobId := by
  have short : (candidates store now acquired skipped).length ≤ 1 := by
    rw [candidates, List.length_map]
    exact length_orderedLimit_le
  cases one : candidates store now acquired skipped with
  | nil => exact ⟨0, nofun⟩
  | cons jobId rest =>
      rw [one, List.length_cons] at short
      obtain rfl := List.eq_nil_of_length_eq_zero (Nat.le_zero.mp (Nat.le_of_succ_le_succ short))
      exact ⟨jobId, fun _ member => List.mem_singleton.mp member⟩

/-- A claim takes at most one job: one that can be claimed. -/
theorem perform_claim {workerId : String} {now lease : Nat} {acquired : Bool} {skipped : List Uuid}
    (done : (EncryptionStatement.meaning (.claimRotationJob workerId now lease acquired skipped)
      snapshot).perform clash snapshot current = some (shown, writes)) :
    (∃ job : KeyRotationJob, current.job? job.keyRotationJobId = some job ∧
        claimable now job = true ∧ shown = [.job (claimed workerId now lease job)] ∧
        writes = [.put (.job (claimed workerId now lease job))]) ∨
      (shown = [] ∧ writes = []) := by
  obtain ⟨jobId, one⟩ := candidates_one snapshot now acquired skipped
  have only : ∀ row : KeyRotationJob, (claimable now row && decide
      (row.keyRotationJobId ∈ candidates snapshot now acquired skipped)) = true →
      row.keyRotationJobId = jobId := fun row holds =>
    one _ (of_decide_eq_true (Bool.and_eq_true_iff.mp holds).2)
  rcases perform_setJob (f := claimed workerId now lease) (fun _ => rfl) only done with
    ⟨row, isThere, holds, isShown, isWritten⟩ | ⟨nothing, none, -⟩
  · obtain rfl := only row holds
    exact .inl ⟨row, isThere, (Bool.and_eq_true_iff.mp holds).1, isShown, isWritten⟩
  · exact .inr ⟨nothing, none⟩

theorem mem_registry {store : EncryptionStore} {record : EncryptionKeyRecord} :
    record ∈ store.registry ↔ store.registered? record.keyVersion = some record := by
  rw [EncryptionStore.registry, List.mem_insertionSort, List.mem_filterMap,
    EncryptionStore.registered?, RowKind.at?_eq_some]
  constructor
  · rintro ⟨row, member, isRegistered⟩
    obtain rfl := (EncryptionRow.registered.unwrap_eq_some row record).mp isRegistered
    exact RowStore.lookup_of_mem (s := store) member
  · intro found
    exact ⟨_, RowStore.mem_of_lookup found, EncryptionRow.registered.unwrap_wrap record⟩

/-- `list_keys` returns the registry. -/
theorem perform_listKeys
    (done : (EncryptionStatement.meaning .listKeys snapshot).perform clash snapshot current =
      some (shown, writes)) {record : EncryptionKeyRecord} :
    record ∈ shown.filterMap EncryptionRow.registered.unwrap ↔
      snapshot.registered? record.keyVersion = some record := by
  obtain ⟨rfl, -⟩ := Prod.mk.inj (Option.some.inj done)
  rw [← mem_registry, List.mem_filterMap]
  constructor
  · rintro ⟨row, member, isRegistered⟩
    obtain ⟨other, isRow, rfl⟩ := List.mem_map.mp member
    obtain rfl := Option.some.inj isRegistered
    exact isRow
  · exact fun member => ⟨_, List.mem_map_of_mem member, rfl⟩

/-- The records that a query has locked. -/
theorem perform_load {kind : EncryptedRecordKind} {target limit : Nat} {skipped : List RecordId}
    (done : (EncryptionStatement.meaning (.loadRecords kind target limit skipped) snapshot).perform
      clash snapshot current = some (shown, writes)) :
    writes = shown.map .put ∧ shown.Nodup ∧ ∀ row, row ∈ shown ↔
      ∃ record, row = .record record ∧ current.record? record.recordId = some record ∧
        outdated kind target record = true ∧
        record.recordId ∈ chosen snapshot kind target limit skipped ∧
        ∃ old, snapshot.record? record.recordId = some old ∧ outdated kind target old = true := by
  obtain ⟨rfl, rfl⟩ := Command.perform_set done
  rw [List.map_id]
  refine ⟨rfl, current.nodup_rows.filter _, fun row => ?_⟩
  rw [Command.mem_found]
  constructor
  · rintro ⟨isThere, meets, old, wasThere, met⟩
    obtain ⟨record, rfl, holds⟩ := EncryptionRow.records.meets_iff.mp meets
    obtain ⟨before, rfl, held⟩ := EncryptionRow.records.meets_iff.mp met
    obtain ⟨isOutdated, member⟩ := Bool.and_eq_true_iff.mp holds
    refine ⟨record, rfl, RowKind.at?_eq_some.mpr (RowStore.lookup_of_mem isThere), isOutdated,
      of_decide_eq_true member, before, RowKind.at?_eq_some.mpr wasThere, ?_⟩
    exact (Bool.and_eq_true_iff.mp held).1
  · rintro ⟨record, rfl, isThere, isOutdated, member, old, wasThere, wasOutdated⟩
    have same : old.recordId = record.recordId := EncryptionKey.record.inj
      (RowStore.key_of_lookup (RowKind.at?_eq_some.mp wasThere))
    refine ⟨RowStore.mem_of_lookup (RowKind.at?_eq_some.mp isThere), ?_, .record old,
      RowKind.at?_eq_some.mp wasThere, ?_⟩
    · exact EncryptionRow.records.meets_iff.mpr ⟨record, rfl,
        Bool.and_eq_true_iff.mpr ⟨isOutdated, decide_eq_true member⟩⟩
    · exact EncryptionRow.records.meets_iff.mpr ⟨old, rfl,
        Bool.and_eq_true_iff.mpr ⟨wasOutdated, decide_eq_true (same ▸ member)⟩⟩

/-! ## All statements -/

/-- **The returned rows of a statement tell its writes.** -/
theorem tellable : (encryptionService settings).Tellable EncryptionStatement.effects := by
  intro statement snapshot current shown writes done
  have upserted : ∀ {row : EncryptedRecord} {f : EncryptedRecord → EncryptedRecord}
      (keeps : ∀ row, (f row).recordId = row.recordId),
      (upsertRecord row f keeps).perform EncryptionRow.clash snapshot current =
        some (shown, writes) → writes = shown.map .put := by
    intro row f keeps done
    rcases perform_upsertRecord keeps done with ⟨-, rfl, rfl⟩ | ⟨old, -, rfl, rfl⟩ <;> rfl
  have inserted : ∀ {row : EncryptionRow},
      (Command.insert row false : EncryptionCommand).perform EncryptionRow.clash snapshot current =
        some (shown, writes) → writes = shown.map .put := by
    intro row done
    obtain ⟨-, rfl, rfl⟩ := perform_insert done
    rfl
  cases statement with
  | listKeys | getMasterKeyCheck | getSystemSecret secretName | usage =>
      exact (Prod.mk.inj (Option.some.inj done)).2.symm
  | addKey record =>
      rcases Command.perform_insertAbsent done with ⟨-, rfl, rfl⟩ | ⟨-, rfl, rfl⟩ <;> rfl
  | putSystemSecret secretName secret version now =>
      exact upserted (f := replacedSecret secret version now) (fun _ => rfl) done
  | createRotationJob job => exact inserted done
  | claimRotationJob workerId now lease acquired skipped | loadRecords kind target limit skipped
  | updateRecord recordId payload version now => exact (Command.perform_set done).2
  | updateRotationJob jobId state increment remaining now lease errorCode =>
      exact (Command.perform_set done).2
  | ordinary statement =>
      cases statement with
      | addCredentialEnvelope _ _ _ _ _ | addSecretInputs _ _ _ _ _ => exact inserted done
      | putMfaFactor _ secret version _ now =>
          exact upserted (f := replacedFactor secret version now) (fun _ => rfl) done
      | confirmMfaFactor _ _ | acceptTotpStep _ _ _ => exact (Command.perform_set done).2
      | deleteMfaFactor _ | deleteSecretInputs _ | deleteBusiness _ _ =>
          exact (Command.perform_delete done).2
      | setBusiness row =>
          rcases Command.perform_upsert done with ⟨-, rfl, rfl⟩ | ⟨old, -, rfl, rfl⟩ <;> rfl

end Perform

end OpsComposer.Encryption
