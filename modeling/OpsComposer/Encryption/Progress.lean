import OpsComposer.Encryption.Retirement
import OpsComposer.Foundations.Alone

/-!
# A rotation comes to its end

A batch that is alone loads some of the outdated records if there are any, opens and seals each of
them, and counts what is left (`batch_alone`).  So the outdated records get fewer with every batch,
and the batch that leaves none ends the job.  From every state in which no transaction is under
way, one worker can bring the active job to its end, also a job that another worker has left behind
(`rotation_completes`), as long as all records can be opened.
-/

set_option autoImplicit false

namespace OpsComposer.Encryption

open Domain (Uuid)
open Foundations Services RowStore

/-! ## Counting the outdated records -/

section Counts

variable {store store' : EncryptionStore} {target : Nat}

/-- The records that are not under the version. -/
def EncryptionStore.outdatedIds (store : EncryptionStore) (target : Nat) : List RecordId :=
  (store.records.filter fun record => decide (record.encryptionKeyVersion ≠ target)).map
    EncryptedRecord.recordId

theorem length_outdatedIds : (store.outdatedIds target).length = store.outdatedCount target := by
  rw [EncryptionStore.outdatedIds, List.length_map, EncryptionStore.outdatedCount,
    List.countP_eq_length_filter]

theorem mem_outdatedIds {recordId : RecordId} : recordId ∈ store.outdatedIds target ↔
    ∃ record, store.record? recordId = some record ∧ record.encryptionKeyVersion ≠ target := by
  rw [EncryptionStore.outdatedIds, List.mem_map]
  constructor
  · rintro ⟨record, member, rfl⟩
    obtain ⟨member, isOutdated⟩ := List.mem_filter.mp member
    exact ⟨record, mem_records.mp member, of_decide_eq_true isOutdated⟩
  · rintro ⟨record, found, isOutdated⟩
    obtain rfl := recordId_of_record? found
    exact ⟨record, List.mem_filter.mpr ⟨mem_records.mpr found, decide_eq_true isOutdated⟩, rfl⟩

theorem nodup_records : store.records.Nodup := by
  refine List.Nodup.filterMap ?_ store.nodup_rows
  intro row other record isRow isOther
  exact ((EncryptionRow.records.unwrap_eq_some row record).mp isRow).trans
    ((EncryptionRow.records.unwrap_eq_some other record).mp isOther).symm

theorem nodup_outdatedIds : (store.outdatedIds target).Nodup := by
  refine List.Nodup.map_on (fun record member other member' same => ?_)
    (nodup_records.filter _)
  have found := mem_records.mp (List.mem_filter.mp member).1
  have found' := mem_records.mp (List.mem_filter.mp member').1
  rw [same, found'] at found
  exact (Option.some.inj found).symm

/-- **The outdated records** are those that have come under the version and those that are left. -/
theorem outdatedCount_split {recordIds : List RecordId} (distinct : recordIds.Nodup)
    (before : ∀ recordId ∈ recordIds, ∃ record, store.record? recordId = some record ∧
      record.encryptionKeyVersion ≠ target)
    (after : ∀ recordId ∈ recordIds, ∃ record, store'.record? recordId = some record ∧
      record.encryptionKeyVersion = target)
    (others : ∀ recordId, recordId ∉ recordIds →
      store'.record? recordId = store.record? recordId) :
    store.outdatedCount target = recordIds.length + store'.outdatedCount target := by
  have apart : recordIds.Disjoint (store'.outdatedIds target) := by
    intro recordId member isOutdated
    obtain ⟨record, found, current⟩ := after recordId member
    obtain ⟨other, found', apart⟩ := mem_outdatedIds.mp isOutdated
    obtain rfl := Option.some.inj (found.symm.trans found')
    exact apart current
  have same : (store.outdatedIds target).Perm (recordIds ++ store'.outdatedIds target) := by
    refine (List.perm_ext_iff_of_nodup nodup_outdatedIds
      (distinct.append nodup_outdatedIds apart)).mpr fun recordId => ?_
    rw [List.mem_append, mem_outdatedIds]
    by_cases member : recordId ∈ recordIds
    · exact ⟨fun _ => .inl member, fun _ => before recordId member⟩
    · rw [← others recordId member, ← mem_outdatedIds]
      exact ⟨.inr, fun either => either.resolve_left member⟩
  rw [← length_outdatedIds, same.length_eq, List.length_append, length_outdatedIds]

theorem outdatedCount_congr (same : ∀ recordId, store'.record? recordId = store.record? recordId) :
    store'.outdatedCount target = store.outdatedCount target := by
  have split : store.outdatedCount target =
      ([] : List RecordId).length + store'.outdatedCount target :=
    outdatedCount_split List.nodup_nil nofun nofun fun recordId _ => same recordId
  rw [split, List.length_nil, Nat.zero_add]

end Counts

/-! ## Its statements -/

section Statements

variable {store : EncryptionStore} (clash : EncryptionRow → EncryptionRow → Bool)

/-- **The claim** takes the only job that can be claimed. -/
theorem claim_only (workerId : String) {now : Nat} (lease : Nat) {job : KeyRotationJob}
    (found : store.job? job.keyRotationJobId = some job) (claims : claimable now job = true)
    (only : ∀ other, store.job? other.keyRotationJobId = some other → claimable now other = true →
      other = job) :
    (EncryptionStatement.meaning (.claimRotationJob workerId now lease true []) store).perform clash
        store store =
      some ([.job (claimed workerId now lease job)],
        [.put (.job (claimed workerId now lease job))]) := by
  have isRow : ∀ other : KeyRotationJob, other ∈ store.rows.filterMap EncryptionRow.jobs.unwrap ↔
      store.job? other.keyRotationJobId = some other := by
    intro other
    rw [List.mem_filterMap, EncryptionStore.job?, RowKind.at?_eq_some]
    constructor
    · rintro ⟨row, member, isJob⟩
      obtain rfl := (EncryptionRow.jobs.unwrap_eq_some row other).mp isJob
      exact RowStore.lookup_of_mem (s := store) member
    · intro found
      exact ⟨_, RowStore.mem_of_lookup found, EncryptionRow.jobs.unwrap_wrap other⟩
  have candidate : ∀ other ∈ orderedLimit jobBefore 1
      ((store.rows.filterMap EncryptionRow.jobs.unwrap).filter fun job =>
        true && claimable now job && decide (job.keyRotationJobId ∉ ([] : List Uuid))),
      other = job := by
    intro other member
    obtain ⟨isJob, holds⟩ := List.mem_filter.mp (mem_of_mem_orderedLimit member)
    refine only other ((isRow other).mp isJob) ?_
    simpa using holds
  have chosen : job.keyRotationJobId ∈ candidates store now true [] := by
    have waits : job ∈ (store.rows.filterMap EncryptionRow.jobs.unwrap).filter fun job =>
        true && claimable now job && decide (job.keyRotationJobId ∉ ([] : List Uuid)) :=
      List.mem_filter.mpr ⟨(isRow job).mpr found, by simp [claims]⟩
    obtain ⟨other, member⟩ := exists_mem_orderedLimit (r := jobBefore) Nat.one_pos waits
    refine List.mem_map.mpr ⟨other, member, ?_⟩
    rw [candidate other member]
  have holds : (claimable now job &&
      decide (job.keyRotationJobId ∈ candidates store now true [])) = true := by
    rw [claims, decide_eq_true chosen]
    rfl
  have among : ∀ row : KeyRotationJob, (claimable now row && decide
      (row.keyRotationJobId ∈ candidates store now true [])) = true →
      row.keyRotationJobId = job.keyRotationJobId := by
    intro row met
    obtain ⟨other, member, same⟩ := List.mem_map.mp
      (of_decide_eq_true (Bool.and_eq_true_iff.mp met).2)
    rw [← same, candidate other member]
  obtain ⟨⟨shown, writes⟩, done⟩ : ∃ result, (EncryptionStatement.meaning
      (.claimRotationJob workerId now lease true []) store).perform clash store store =
        some result := ⟨_, rfl⟩
  rw [done]
  rcases perform_setJob (f := claimed workerId now lease) (fun _ => rfl) among done with
    ⟨row, isThere, -, rfl, rfl⟩ | ⟨-, -, unmet⟩
  · obtain rfl := Option.some.inj (found.symm.trans isThere)
    rfl
  · exact absurd (unmet job job found holds found) (by simp [holds])

/-- **A query** loads a record when there is one. -/
theorem exists_chosen {kind : EncryptedRecordKind} {target limit : Nat} (size : 0 < limit)
    {record : EncryptedRecord} (found : store.record? record.recordId = some record)
    (isOutdated : outdated kind target record = true) :
    ∃ other, store.record? other.recordId = some other ∧ outdated kind target other = true ∧
      other.recordId ∈ chosen store kind target limit [] := by
  have waits : record.recordId ∈ (store.records.filter fun record =>
      outdated kind target record && decide (record.recordId ∉ ([] : List RecordId))).map
        EncryptedRecord.recordId :=
    List.mem_map_of_mem (List.mem_filter.mpr ⟨mem_records.mpr found, by simp [isOutdated]⟩)
  obtain ⟨recordId, member⟩ :=
    exists_mem_orderedLimit (r := fun a b => RecordId.le a b = true) size waits
  obtain ⟨other, isRecord, rfl⟩ := List.mem_map.mp (mem_of_mem_orderedLimit member)
  obtain ⟨isRecord, holds⟩ := List.mem_filter.mp isRecord
  exact ⟨other, mem_records.mp isRecord, (Bool.and_eq_true_iff.mp holds).1, member⟩

/-- **The last update** ends the job that has been claimed. -/
theorem update_only {jobId : Uuid} {state : KeyRotationState} {increment remaining now : Nat}
    {job : KeyRotationJob} (found : store.job? jobId = some job) :
    (EncryptionStatement.meaning (.updateRotationJob jobId state increment remaining now none none)
        store).perform clash store store =
      some ([.job (updatedJob state increment remaining now none none job)],
        [.put (.job (updatedJob state increment remaining now none none job))]) := by
  have isIt : decide (job.keyRotationJobId = jobId) = true := by
    refine decide_eq_true (EncryptionKey.job.inj ?_)
    exact RowStore.key_of_lookup (RowKind.at?_eq_some.mp found)
  have among : ∀ row : KeyRotationJob, decide (row.keyRotationJobId = jobId) = true →
      row.keyRotationJobId = jobId := fun _ => of_decide_eq_true
  obtain ⟨⟨shown, writes⟩, done⟩ : ∃ result, (EncryptionStatement.meaning
      (.updateRotationJob jobId state increment remaining now none none) store).perform clash store
        store = some result := ⟨_, rfl⟩
  rw [done]
  rcases perform_setJob (f := updatedJob state increment remaining now none none) (fun _ => rfl)
      among done with ⟨row, isThere, -, rfl, rfl⟩ | ⟨-, -, unmet⟩
  · obtain rfl := Option.some.inj (found.symm.trans isThere)
    rfl
  · exact absurd (unmet job job found isIt found) (by simp [isIt])

end Statements

/-! ## A batch alone -/

section Batch

variable {Key : Type} {settings : EncryptionSettings Key} {time : Nat} {store : EncryptionStore}
  {writes : List (Write EncryptionKey EncryptionRow)}

/-- **The load** finds some of the outdated records, if there are any. -/
theorem load_alone (time : Nat) (store : EncryptionStore)
    (writes : List (Write EncryptionKey EncryptionRow)) (target : Nat)
    (size : 0 < settings.batchSize) (kinds : List EncryptedRecordKind) :
    ∃ batch locks, (encryptionService settings).Alone time store writes
        (loadRotationBatch target settings.batchSize [] kinds) batch
        (writes ++ recordWrites locks) ∧
      Locked target (applyAll store writes) batch locks ∧
        (batch = [] → ∀ record, (applyAll store writes).record? record.recordId = some record →
          record.recordId.kind ∈ kinds → record.encryptionKeyVersion = target) := by
  induction kinds with
  | nil =>
      refine ⟨[], [], ?_, ⟨.refl _, List.nodup_nil, nofun, nofun⟩, fun _ _ _ => nofun⟩
      rw [show recordWrites [] = [] from rfl, List.append_nil]
      exact .done
  | cons kind kinds ih =>
      obtain ⟨⟨rows, added⟩, done⟩ : ∃ result, (EncryptionStatement.meaning
          (.loadRecords kind target settings.batchSize []) (applyAll store writes)).perform
            EncryptionRow.clash (applyAll store writes) (applyAll store writes) = some result :=
        ⟨_, rfl⟩
      obtain ⟨rfl, nodup, rows_iff⟩ := perform_load done
      have wrapped : rows = (rows.filterMap EncryptionRow.records.unwrap).map .record :=
        map_records fun row member => ((rows_iff row).mp member).imp fun _ holds => holds.1
      have perm : (rows.filterMap EncryptionRow.records.unwrap).Perm (recordsOf rows) :=
        (List.perm_insertionSort ..).symm
      by_cases empty : (recordsOf rows).isEmpty = true
      · have nothing : rows = [] := by
          rw [List.isEmpty_iff.mp empty] at perm
          rw [wrapped, List.perm_nil.mp perm, List.map_nil]
        obtain ⟨batch, locks, alone, locked, current⟩ := ih
        refine ⟨batch, locks, .run done ?_, locked, fun none record found isKind => ?_⟩
        · rw [if_pos empty, nothing, List.map_nil, List.append_nil]
          exact alone
        · rcases List.mem_cons.mp isKind with same | later
          · by_contra apart
            obtain ⟨other, isThere, isOutdated, isChosen⟩ := exists_chosen size found
              (decide_eq_true ⟨same, apart⟩ : outdated kind target record = true)
            have member := (rows_iff _).mpr
              ⟨other, rfl, isThere, isOutdated, isChosen, other, isThere, isOutdated⟩
            rw [nothing] at member
            cases member
          · exact current none record found later
      · have isRow : ∀ record ∈ recordsOf rows,
            (applyAll store writes).record? record.recordId = some record ∧
              outdated kind target record = true := by
          intro record member
          have member : EncryptionRow.record record ∈ rows := by
            rw [wrapped]
            exact List.mem_map_of_mem (perm.mem_iff.mpr member)
          obtain ⟨other, same, found, isOutdated, -⟩ := (rows_iff _).mp member
          obtain rfl := EncryptionRow.record.inj same
          exact ⟨found, isOutdated⟩
        have distinct : (recordsOf rows).Nodup := by
          refine (List.Perm.nodup_iff perm).mp (List.Nodup.of_map EncryptionRow.record ?_)
          rw [← wrapped]
          exact nodup
        refine ⟨recordsOf rows, rows.filterMap EncryptionRow.records.unwrap, .run done ?_,
          ⟨perm, ?_, fun record member => (isRow record member).1, fun record member => ?_⟩,
          fun none => absurd (List.isEmpty_iff.mpr none) empty⟩
        · rw [if_neg empty]
          have same : rows.map Write.put =
              recordWrites (rows.filterMap EncryptionRow.records.unwrap) := by
            conv_lhs => rw [wrapped]
            rw [List.map_map]
            rfl
          rw [same]
          exact .done
        · refine List.Nodup.map_on (fun record member other member' same => ?_) distinct
          have found := (isRow record member).1
          rw [same, (isRow other member').1] at found
          exact (Option.some.inj found).symm
        · exact (of_decide_eq_true (isRow record member).2).2

/-- **The updates** rewrite the records that have been loaded. -/
theorem updates_alone (time now : Nat) {process : Nat} {nonces : RecordId → Nonce} {target : Nat}
    {batch rotated : List EncryptedRecord}
    (rotates : List.Forall₂ (fun record image => reencrypt settings.aead (settings.keyring process)
      (nonces record.recordId) target record = some image) batch rotated)
    (distinct : (batch.map EncryptedRecord.recordId).Nodup)
    (shows : ∀ record ∈ batch,
      (applyAll store writes).record? record.recordId = some record) :
    ∃ news, List.Forall₂ (Reencrypted settings process nonces target now) batch news ∧
      (encryptionService settings).Alone time store writes
        (updateRotationBatch target now rotated) () (writes ++ recordWrites news) := by
  induction rotates generalizing writes with
  | nil =>
      refine ⟨[], .nil, ?_⟩
      rw [show recordWrites [] = [] from rfl, List.append_nil]
      exact .done
  | @cons record image records images made _ ih =>
      obtain ⟨fresh, distinct⟩ := List.nodup_cons.mp distinct
      have same := recordId_of_reencrypt made
      have shown : (applyAll store writes).record? image.recordId = some record :=
        same ▸ shows record (List.mem_cons_self ..)
      obtain ⟨⟨rows, added⟩, done⟩ : ∃ result, (EncryptionStatement.meaning
          (.updateRecord image.recordId image.encryptedPayload target now)
            (applyAll store writes)).perform EncryptionRow.clash (applyAll store writes)
              (applyAll store writes) = some result := ⟨_, rfl⟩
      rcases perform_setRecord (f := rewritten image.encryptedPayload target now) (fun _ => rfl)
          done with ⟨old, isThere, -, rfl, rfl⟩ | ⟨-, -, unmet⟩
      · obtain rfl : record = old := Option.some.inj (shown.symm.trans isThere)
        have still : ∀ other ∈ records, (applyAll store (writes ++ [.put (.record
            (rewritten image.encryptedPayload target now record))])).record? other.recordId =
              some other := by
          intro other member
          have apart : EncryptionRow.key (.record (rewritten image.encryptedPayload target now
              record)) ≠ .record other.recordId := fun collides => fresh
            (List.mem_map.mpr ⟨other, member, (EncryptionKey.record.inj collides).symm⟩)
          exact (RowKind.at?_put_other apart).trans
            (shows other (List.mem_cons_of_mem _ member))
        obtain ⟨news, related, alone⟩ := ih distinct still
        refine ⟨_, .cons ⟨image, made, rfl⟩ related, .run done ?_⟩
        rw [List.append_assoc] at alone
        exact alone
      · exact absurd (unmet record record shown rfl shown) (by simp)

/-- A record that can be opened can be sealed again. -/
theorem exists_reencrypt {aead : Aead Key} {keyring : MasterKeyring Key} (nonce : Nonce)
    {record : EncryptedRecord} (opens : (opened aead keyring record).isSome) :
    ∃ rotated, reencrypt aead keyring nonce keyring.primaryVersion record = some rotated := by
  obtain ⟨key, isKey⟩ := Option.isSome_iff_exists.mp
    (MasterKeyring.key?_isSome.mpr keyring.primary_mem)
  unfold opened at opens
  unfold reencrypt
  split at opens
  · rename_i credentialId revision isCredential
    obtain ⟨secret, isSecret⟩ :=
      Option.isSome_iff_exists.mp ((Option.isSome_map ..).symm.trans opens)
    obtain ⟨envelope, made⟩ :
        ∃ envelope, CredentialCipher.encrypt aead keyring nonce credentialId revision secret =
          some envelope := CredentialCipher.exists_encrypt nonce credentialId revision secret
    simp [isCredential, isSecret, made]
  · rename_i other
    obtain ⟨plaintext, isPlain⟩ :=
      Option.isSome_iff_exists.mp ((Option.isSome_map ..).symm.trans opens)
    simp [isPlain, MasterKeyring.encryptWithAad, isKey]

/-- What is made of each record of a batch. -/
theorem exists_mapM {α β : Type} {f : α → Option β} {elements : List α}
    (made : ∀ a ∈ elements, ∃ b, f a = some b) : ∃ images, elements.mapM f = some images := by
  induction elements with
  | nil => exact ⟨[], rfl⟩
  | cons a elements ih =>
      obtain ⟨b, here⟩ := made a (List.mem_cons_self ..)
      obtain ⟨images, rest⟩ := ih fun other member => made other (List.mem_cons_of_mem _ member)
      refine ⟨b :: images, Text.mapM_eq_some.mpr (.cons here (Text.mapM_eq_some.mp rest))⟩

/-- **A batch alone** counts what it leaves, and leaves fewer outdated records if there are any. -/
theorem batch_alone (size : 0 < settings.batchSize) {process : Nat} (workerId : String)
    (nonces : RecordId → Nonce) {job : KeyRotationJob}
    (found : store.job? job.keyRotationJobId = some job) (claims : claimable time job = true)
    (only : ∀ other, store.job? other.keyRotationJobId = some other → claimable time other = true →
      other = job)
    (target : job.targetKeyVersion = (settings.keyring process).primaryVersion)
    (opens : ∀ recordId record, store.record? recordId = some record →
      (opened settings.aead (settings.keyring process) record).isSome) :
    ∃ batch locks news remaining, (encryptionService settings).Alone time store []
        (processRotationBatch settings process workerId true [] [] nonces)
        (.processed job.keyRotationJobId)
        (batchWrites (claimed workerId time (time + rotationLease) job)
          (finishedJob workerId time news.length remaining job) locks news) ∧
      Processed settings store process workerId nonces job time remaining batch locks news ∧
        store.outdatedCount job.targetKeyVersion = news.length + remaining ∧
          (applyAll store (batchWrites (claimed workerId time (time + rotationLease) job)
            (finishedJob workerId time news.length remaining job) locks news)).outdatedCount
              job.targetKeyVersion = remaining ∧
            (news = [] → remaining = 0) := by
  have claims_it := claim_only EncryptionRow.clash workerId (time + rotationLease) found claims only
  obtain ⟨batch, locks, loads, locked, current⟩ := load_alone time store
    [.put (.job (claimed workerId time (time + rotationLease) job))] job.targetKeyVersion size
    recordKinds
  have view : ∀ recordId, (applyAll store [.put (.job
      (claimed workerId time (time + rotationLease) job))]).record? recordId =
        store.record? recordId := fun recordId =>
    record?_frame fun isTouched => by cases List.mem_singleton.mp isTouched
  have locked : Locked job.targetKeyVersion store batch locks :=
    ⟨locked.perm, locked.distinct,
      fun record member => (view _).symm.trans (locked.isThere record member), locked.outdated⟩
  obtain ⟨rotated, rotates⟩ : ∃ rotated, batch.mapM (fun record => reencrypt settings.aead
      (settings.keyring process) (nonces record.recordId) job.targetKeyVersion record) =
        some rotated := by
    refine exists_mapM fun record member => ?_
    rw [target]
    exact exists_reencrypt _ (opens _ _ (locked.isThere record member))
  have shows : ∀ record ∈ batch, (applyAll store ([.put (.job
      (claimed workerId time (time + rotationLease) job))] ++ recordWrites locks)).record?
        record.recordId = some record := by
    intro record member
    rw [applyAll_append, record?_recordWrites ((locked.perm.map _).nodup_iff.mpr locked.distinct)
      (locked.perm.mem_iff.mpr member)]
  obtain ⟨news, rewrites, updates⟩ := updates_alone time time
    (Text.mapM_eq_some.mp rotates) locked.distinct shows
  have sizes : rotated.length = news.length :=
    (Text.mapM_eq_some.mp rotates).length_eq.symm.trans rewrites.length_eq
  generalize isAll : [.put (.job (claimed workerId time (time + rotationLease) job))] ++
    recordWrites locks ++ recordWrites news = all at updates
  have here : (applyAll store all).job? job.keyRotationJobId =
      some (claimed workerId time (time + rotationLease) job) := by
    rw [← isAll, List.append_assoc, applyAll_append, job?_frame ?_]
    · exact job?_put [] rfl
    · rw [touched_append, List.mem_append, mem_touched_recordWrites, mem_touched_recordWrites]
      rintro (⟨_, -, same⟩ | ⟨_, -, same⟩) <;> cases same
  have last : ∀ remaining, batchWrites (claimed workerId time (time + rotationLease) job)
      (finishedJob workerId time news.length remaining job) locks news =
        all ++ [.put (.job (finishedJob workerId time news.length remaining job))] :=
    fun _ => isAll ▸ rfl
  have processed : ∀ remaining, Processed settings store process workerId nonces job time remaining
      batch locks news := fun remaining => ⟨found, claims, target, locked, rewrites⟩
  have frame : ∀ remaining recordId, (applyAll store (all ++ [.put (.job
      (finishedJob workerId time news.length remaining job))])).record? recordId =
        (applyAll store all).record? recordId := by
    intro remaining recordId
    rw [applyAll_append]
    exact record?_frame fun isTouched => by cases List.mem_singleton.mp isTouched
  have count : store.outdatedCount job.targetKeyVersion =
      news.length + (applyAll store all).outdatedCount job.targetKeyVersion := by
    have size : (batch.map EncryptedRecord.recordId).length = news.length :=
      (List.length_map ..).trans rewrites.length_eq
    rw [← size]
    refine outdatedCount_split locked.distinct (fun recordId among => ?_)
      (fun recordId among => ?_) fun recordId apart => ?_
    · obtain ⟨record, member, rfl⟩ := List.mem_map.mp among
      exact ⟨record, locked.isThere record member, locked.outdated record member⟩
    · obtain ⟨record, member, rfl⟩ := List.mem_map.mp among
      obtain ⟨new, ⟨rotated, made, rfl⟩, isNew⟩ := (processed 0).rewrites_record member
      exact ⟨_, (frame 0 _).symm.trans (last 0 ▸ isNew), rfl⟩
    · rw [← frame 0, ← last]
      exact (processed 0).leaves_record fun record member same =>
        apart (List.mem_map.mpr ⟨record, member, same⟩)
  refine ⟨batch, locks, news, (applyAll store all).outdatedCount job.targetKeyVersion, ?_,
    processed _, count, ?_, fun none => ?_⟩
  · rw [last]
    refine .bind (.clock .done) (.bind (.run claims_it .done) ?_)
    refine .bind (.raiseIf ?_) (.bind loads (.bind (.orFail rotates) (.bind updates ?_)))
    · exact decide_eq_false fun apart => apart target
    · have usage : (EncryptionStatement.meaning .usage (applyAll store all)).perform
          EncryptionRow.clash (applyAll store all) (applyAll store all) = some
            ((applyAll store all).versions.map fun version =>
              .usage ((applyAll store all).usage version), []) := rfl
      refine .bind (.run usage .done) ?_
      rw [remainingCount_usage, List.append_nil, sizes]
      exact .run (update_only _ here) .done
  · rw [last]
    exact outdatedCount_congr (frame _)
  · subst none
    have empty : batch = [] := List.eq_nil_of_length_eq_zero rewrites.length_eq
    have kinds : ∀ kind, kind ∈ recordKinds := by
      intro kind
      cases kind <;> decide
    have nothing : store.outdatedCount job.targetKeyVersion = 0 := by
      refine outdatedCount_eq_zero.mpr fun recordId record found => ?_
      obtain rfl := recordId_of_record? found
      exact current empty record ((view _).trans found) (kinds _)
    rw [nothing, List.length_nil, Nat.zero_add] at count
    exact count.symm

end Batch

/-! ## The run -/

section Run

variable {Key : Type} {settings : EncryptionSettings Key} {initial : EncryptionStore → Prop}
  {process : Nat} {workerId : String} {nonces : RecordId → Nonce}

/-- Only batches of the worker come in. -/
def OnlyBatches (process : Nat) (workerId : String) (nonces : RecordId → Nonce)
    (actions : List (DbAct EncryptionCall)) : Prop :=
  ∀ call, .onDb (.begin call) ∈ actions →
    call = .processRotationBatch process workerId true [] [] nonces

theorem OnlyBatches.append {actions actions' : List (DbAct EncryptionCall)}
    (first : OnlyBatches process workerId nonces actions)
    (second : OnlyBatches process workerId nonces actions') :
    OnlyBatches process workerId nonces (actions ++ actions') := by
  intro call member
  rcases List.mem_append.mp member with before | after
  · exact first call before
  · exact second call after

/-- A world in which a worker can go on with a job: nothing is under way, the job has the primary
version and is the only active one, and all records can be opened. -/
structure CanRotate (settings : EncryptionSettings Key) (process : Nat) (world : EncryptionWorld)
    (job : KeyRotationJob) : Prop where
  quiet : world.db.Quiet
  found : world.db.state.job? job.keyRotationJobId = some job
  only : ∀ other, world.db.state.job? other.keyRotationJobId = some other →
    other.state.isActive = true → other = job
  target : job.targetKeyVersion = (settings.keyring process).primaryVersion
  opens : ∀ recordId record, world.db.state.record? recordId = some record →
    (opened settings.aead (settings.keyring process) record).isSome

/-- What batches have done by some later world. -/
structure Advanced (settings : EncryptionSettings Key) (process : Nat)
    (world later : EncryptionWorld) (job last : KeyRotationJob) (moved : Nat) : Prop where
  quiet : later.db.Quiet
  same : last.keyRotationJobId = job.keyRotationJobId
  target : last.targetKeyVersion = job.targetKeyVersion
  found : later.db.state.job? job.keyRotationJobId = some last
  processed : last.processedCount = job.processedCount + moved
  counts : world.db.state.outdatedCount job.targetKeyVersion =
    moved + later.db.state.outdatedCount job.targetKeyVersion
  holdings : ∀ recordId, later.db.state.holding? settings.aead (settings.keyring process) recordId =
    world.db.state.holding? settings.aead (settings.keyring process) recordId
  others : ∀ otherId, otherId ≠ job.keyRotationJobId →
    later.db.state.job? otherId = world.db.state.job? otherId

variable {world : EncryptionWorld} {job : KeyRotationJob}

theorem Advanced.trans {middle later : EncryptionWorld} {half last : KeyRotationJob}
    {moved moved' : Nat} (first : Advanced settings process world middle job half moved)
    (second : Advanced settings process middle later half last moved') :
    Advanced settings process world later job last (moved + moved') where
  quiet := second.quiet
  same := second.same.trans first.same
  target := second.target.trans first.target
  found := first.same ▸ second.found
  processed := by rw [second.processed, first.processed, Nat.add_assoc]
  counts := by rw [first.counts, ← first.target, second.counts, Nat.add_assoc]
  holdings recordId := (second.holdings recordId).trans (first.holdings recordId)
  others otherId apart :=
    (second.others otherId (first.same ▸ apart)).trans (first.others otherId apart)

/-- A worker can go on after it. -/
theorem CanRotate.advanced {later : EncryptionWorld} {last : KeyRotationJob} {moved : Nat}
    (can : CanRotate settings process world job)
    (advanced : Advanced settings process world later job last moved) :
    CanRotate settings process later last where
  quiet := advanced.quiet
  found := advanced.same ▸ advanced.found
  only other isThere active := by
    by_cases same : other.keyRotationJobId = job.keyRotationJobId
    · rw [same] at isThere
      exact Option.some.inj (isThere.symm.trans advanced.found)
    · rw [advanced.others _ same] at isThere
      exact absurd (congrArg KeyRotationJob.keyRotationJobId (can.only other isThere active)) same
  target := advanced.target.trans can.target
  opens recordId record isThere := by
    have same := advanced.holdings recordId
    rw [EncryptionStore.holding?, isThere, EncryptionStore.holding?] at same
    obtain ⟨old, found, isOpened⟩ := Option.map_eq_some_iff.mp same.symm
    rw [← isOpened]
    exact can.opens recordId old found

/-- No statement sets a watched column. -/
theorem not_isWatched (statement : EncryptionStatement) (store : EncryptionStore) :
    ((encryptionService settings).meaning statement store).isWatched = false := by
  cases statement with
  | ordinary statement => cases statement <;> rfl
  | _ => rfl

/-- **One batch**: it takes some of the outdated records, if there are any, and ends the job when
it has left none. -/
theorem batch_run (initial : EncryptionStore → Prop) (workerId : String) (nonces : RecordId → Nonce)
    (lawful : settings.aead.Lawful) (tagged : Tagged settings.aead) (size : 0 < settings.batchSize)
    (can : CanRotate settings process world job) (claims : claimable world.clock job = true) :
    ∃ actions later last moved,
      (encryptionSystem settings initial).exec world actions = some later ∧
        OnlyBatches process workerId nonces actions ∧ later.clock = world.clock ∧
          Advanced settings process world later job last moved ∧
            (moved = 0 → later.db.state.outdatedCount job.targetKeyVersion = 0) ∧
              last.state = if later.db.state.outdatedCount job.targetKeyVersion = 0 then .succeeded
                else .pending := by
  obtain ⟨batch, locks, news, remaining, alone, processed, count, left, none⟩ :=
    batch_alone size workerId nonces can.found claims
      (fun other isThere claimed => can.only other isThere (isActive_of_claimable claimed))
      can.target can.opens
  obtain ⟨actions, db, txn, ran, noBegin, committed⟩ :=
    Service.Alone.commits initial not_isWatched
      (.processRotationBatch process workerId true [] [] nonces) can.quiet alone
  have state := committed.state
  have ends : db.state.job? job.keyRotationJobId =
      some (finishedJob workerId world.clock news.length remaining job) := by
    rw [state, batchWrites]
    exact job?_put _ rfl
  refine ⟨_, ⟨world.clock, db⟩, finishedJob workerId world.clock news.length remaining job,
    news.length, ran, ?_, rfl, ?_, fun nothing => ?_, ?_⟩
  · intro call member
    rcases List.mem_cons.mp member with same | later
    · cases same
      rfl
    · exact absurd later (noBegin call)
  · refine ⟨?_, rfl, rfl, ends, rfl, ?_, fun recordId => ?_, fun otherId apart => ?_⟩
    · intro other member
      rw [show (DbWorld.mk world.clock db).db.txns = db.txns from rfl, committed.txns] at member
      rcases List.mem_append.mp member with old | last
      · exact can.quiet other old
      · rw [List.mem_singleton.mp last, Txn.live, committed.status]
        rfl
    · exact count.trans (congrArg _ (left.symm.trans (congrArg (EncryptionStore.outdatedCount · _)
        state.symm)))
    · rw [show (DbWorld.mk world.clock db).db.state = db.state from rfl, state]
      exact processed.holding lawful tagged
    · refine (congrArg (EncryptionStore.job? · otherId) state).trans ?_
      refine job?_frame fun isTouched => ?_
      rcases mem_touched_batchWrites.mp isTouched with
        same | ⟨_, -, wrong⟩ | ⟨_, -, wrong⟩ | same
      · exact apart (EncryptionKey.job.inj same)
      · cases wrong
      · cases wrong
      · exact apart (EncryptionKey.job.inj same)
  · rw [show (DbWorld.mk world.clock db).db.state = db.state from rfl, state, left]
    exact none (List.eq_nil_of_length_eq_zero nothing)
  · rw [show (DbWorld.mk world.clock db).db.state = db.state from rfl, state, left]
    rfl

/-- A job that can be claimed is brought to its end. -/
theorem completes_of_claimable (initial : EncryptionStore → Prop) (workerId : String)
    (nonces : RecordId → Nonce) (lawful : settings.aead.Lawful) (tagged : Tagged settings.aead)
    (size : 0 < settings.batchSize)
    (can : CanRotate settings process world job) (claims : claimable world.clock job = true) :
    ∃ actions later last,
      (encryptionSystem settings initial).exec world actions = some later ∧
        OnlyBatches process workerId nonces actions ∧
          Advanced settings process world later job last
              (world.db.state.outdatedCount job.targetKeyVersion) ∧
            last.state = .succeeded ∧ later.db.state.outdatedCount job.targetKeyVersion = 0 := by
  induction isCount : world.db.state.outdatedCount job.targetKeyVersion
    using Nat.strong_induction_on generalizing world job with
  | h count ih =>
      obtain ⟨actions, middle, half, moved, ran, only, -, advanced, none, state⟩ :=
        batch_run initial workerId nonces lawful tagged size can claims
      have counts := advanced.counts
      by_cases ended : middle.db.state.outdatedCount job.targetKeyVersion = 0
      · rw [ended, Nat.add_zero, isCount] at counts
        rw [if_pos ended] at state
        exact ⟨actions, middle, half, ran, only, counts ▸ advanced, state, ended⟩
      · rw [if_neg ended] at state
        have some : 0 < moved := Nat.pos_of_ne_zero fun nothing => ended (none nothing)
        have waits : claimable middle.clock half = true := by
          rw [claimable, state]
          rfl
        obtain ⟨actions', later, last, ran', only', advanced', succeeded, nothing⟩ :=
          ih (middle.db.state.outdatedCount half.targetKeyVersion)
            (by rw [advanced.target]; omega) (can.advanced advanced) waits rfl
        refine ⟨actions ++ actions', later, last, ?_, only.append only', ?_, succeeded,
          advanced.target ▸ nothing⟩
        · rw [System.exec_append, ran, Option.bind_some]
          exact ran'
        · have both := advanced.trans advanced'
          rwa [advanced.target, ← counts, isCount] at both

/-- **A rotation can always be brought to its end.** Where nothing is under way and all records can
be opened, batches of one worker that come one after the other, after the lease of a lost worker
has run out, let the active job succeed: all records come under the primary version and hold what
they have held, and the job has counted each of them once. -/
theorem rotation_completes (initial : EncryptionStore → Prop) (lawful : settings.aead.Lawful)
    (tagged : Tagged settings.aead) (size : 0 < settings.batchSize) (workerId : String)
    (nonces : RecordId → Nonce) {world : EncryptionWorld} {job : KeyRotationJob}
    (can : CanRotate settings process world job) (active : job.state.isActive = true)
    (leased : job.state = .running → job.leaseExpiresAt.isSome = true) :
    ∃ actions later last,
      (encryptionSystem settings initial).exec world actions = some later ∧
        OnlyBatches process workerId nonces actions ∧
          Advanced settings process world later job last
              (world.db.state.outdatedCount job.targetKeyVersion) ∧
            last.state = .succeeded ∧ ∀ recordId record,
              later.db.state.record? recordId = some record →
                record.encryptionKeyVersion = (settings.keyring process).primaryVersion := by
  obtain ⟨elapsed, claims⟩ : ∃ elapsed, claimable (world.clock + elapsed) job = true := by
    unfold claimable
    cases state : job.state with
    | pending => exact ⟨0, rfl⟩
    | running =>
        obtain ⟨lease, isLease⟩ := Option.isSome_iff_exists.mp (leased state)
        exact ⟨lease, by simp [isLease]⟩
    | succeeded | failed =>
        rw [state] at active
        cases active
  have later : CanRotate settings process { world with clock := world.clock + elapsed } job :=
    ⟨can.quiet, can.found, can.only, can.target, can.opens⟩
  obtain ⟨actions, later, last, ran, only, advanced, succeeded, nothing⟩ :=
    completes_of_claimable initial workerId nonces lawful tagged size later claims
  refine ⟨.tick elapsed :: actions, later, last, ran, fun call member => ?_,
    { advanced with }, succeeded, fun recordId record found => ?_⟩
  · rcases List.mem_cons.mp member with wrong | later
    · cases wrong
    · exact only call later
  · exact (outdatedCount_eq_zero.mp nothing recordId record found).trans can.target

end Run

/-! ## One record -/

/-- A job that waits. -/
def waitingJob : KeyRotationJob where
  keyRotationJobId := 5
  targetKeyVersion := 2
  state := .pending
  requestedBy := 1
  processedCount := 0
  createdAt := 0
  updatedAt := 0

/-- The record of the factor, and the job. -/
def waitingWorld : EncryptionWorld :=
  { clock := 0, db := { state := (Table.empty.put (.record oldFactor)).put (.job waitingJob) } }

theorem waitingWorld_canRotate : CanRotate bothKeys 1 waitingWorld waitingJob where
  quiet := fun _ none => nomatch none
  found := rfl
  only other isThere _ := by
    have member : EncryptionRow.job other ∈ [EncryptionRow.job waitingJob, .record oldFactor] :=
      RowStore.mem_of_lookup (RowKind.at?_eq_some.mp isThere)
    rcases List.mem_cons.mp member with same | wrong
    · exact EncryptionRow.job.inj same
    · cases List.mem_singleton.mp wrong
  target := rfl
  opens recordId record isThere := by
    have member : EncryptionRow.record record ∈ [EncryptionRow.job waitingJob, .record oldFactor] :=
      RowStore.mem_of_lookup (RowKind.at?_eq_some.mp isThere)
    rcases List.mem_cons.mp member with wrong | same
    · cases wrong
    · obtain rfl := EncryptionRow.record.inj (List.mem_singleton.mp same)
      decide

/-- The job succeeds, and has counted the record. -/
theorem rotation_completes_factor : ∃ actions later last,
    (encryptionSystem bothKeys fun store => store = waitingWorld.db.state).exec waitingWorld
        actions = some later ∧
      later.db.state.job? 5 = some last ∧ last.state = .succeeded ∧ last.processedCount = 1 ∧
        ∀ recordId record, later.db.state.record? recordId = some record →
          record.encryptionKeyVersion = 2 := by
  obtain ⟨actions, later, last, ran, -, advanced, succeeded, current⟩ :=
    rotation_completes (fun store => store = waitingWorld.db.state) zeroTagged_lawful
      zeroTagged_tagged (by decide) "worker" (fun _ => zeroNonce) waitingWorld_canRotate rfl nofun
  exact ⟨actions, later, last, ran, advanced.found, succeeded, advanced.processed, current⟩

end OpsComposer.Encryption
