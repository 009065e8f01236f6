import OpsComposer.Encryption.Statements

/-!
# The logs with which the operations on keys end

What a transaction that comes to its end has executed: one shape of the log for each
operation (`Outcome`), with what its program has found on the way.  An operation that fails
has no such log.
-/

set_option autoImplicit false

namespace OpsComposer.Encryption

open Domain (Uuid)
open Foundations Services
open Program (bind_assoc execute_bind run_bind Ends ends_done ends_fail ends_run ends_clock ends_orFail
  ends_raiseIf ends_ofAnswer)

section Outcomes

variable {Key : Type} (settings : EncryptionSettings Key)

/-! ## Parts of logs -/

/-- The events of the check of the legacy setting. -/
inductive LegacyChecked : List EncryptionEvent → Prop where
  | registered : LegacyChecked []
  | read {rows : List EncryptionRow} {seen : Nat} :
      LegacyChecked [.ran .getMasterKeyCheck rows seen]

/-- The events of the loop over the versions of a keyring: the versions that were not
registered are added, and the others have been checked. -/
inductive KeysRegistered (keyring : MasterKeyring Key) (registered : List EncryptionKeyRecord)
    (nonces : Nat → Nonce) (now : Nat) : List Nat → List EncryptionEvent → Prop where
  | nil : KeysRegistered keyring registered nonces now [] []
  | added {version : Nat} {versions : List Nat} {envelope : Bytes} {rows : List EncryptionRow}
      {seen : Nat} {events : List EncryptionEvent}
      (absent : (registered.find? fun record => decide (record.keyVersion = version)) = none)
      (made : keyring.encryptCheck settings.aead (nonces version) version = some envelope)
      (rest : KeysRegistered keyring registered nonces now versions events) :
      KeysRegistered keyring registered nonces now (version :: versions)
        (.ran (.addKey ⟨version, envelope, now, none⟩) rows seen :: events)
  | found {version : Nat} {versions : List Nat} {record : EncryptionKeyRecord}
      {events : List EncryptionEvent}
      (isThere : (registered.find? fun record => decide (record.keyVersion = version)) =
        some record)
      (valid : keyring.validateCheck settings.aead version record.verificationEnvelope = true)
      (rest : KeysRegistered keyring registered nonces now versions events) :
      KeysRegistered keyring registered nonces now (version :: versions) events

/-- The events of `ensurePepper`. -/
inductive PepperEnsured (keyring : MasterKeyring Key) (nonce : Nonce) (pepper : Pepper)
    (now : Nat) : List EncryptionEvent → Prop where
  | found {rows : List EncryptionRow} {seen : Nat} {record : EncryptedRecord}
      (isThere : firstRecord? rows = some record) :
      PepperEnsured keyring nonce pepper now [.ran (.getSystemSecret idempotencySecretName) rows seen]
  | stored {rows rows' : List EncryptionRow} {seen seen' : Nat} {made : Bytes × Nat}
      (absent : firstRecord? rows = none)
      (isMade : keyring.encryptWithAad settings.aead nonce pepper.bytes
        (RecordId.aad (.system idempotencySecretName)) none = some made) :
      PepperEnsured keyring nonce pepper now
        [.ran (.getSystemSecret idempotencySecretName) rows seen,
          .ran (.putSystemSecret idempotencySecretName made.1 made.2 now) rows' seen']

/-- The events of `load_rotation_batch`, and what it returns. -/
inductive Loaded (targetKeyVersion limit : Nat) (skipped : List RecordId) :
    List EncryptedRecordKind → List EncryptedRecord → List EncryptionEvent → Prop where
  | nil : Loaded targetKeyVersion limit skipped [] [] []
  | none {kind : EncryptedRecordKind} {kinds : List EncryptedRecordKind}
      {batch : List EncryptedRecord} {rows : List EncryptionRow} {seen : Nat}
      {events : List EncryptionEvent} (empty : recordsOf rows = [])
      (rest : Loaded targetKeyVersion limit skipped kinds batch events) :
      Loaded targetKeyVersion limit skipped (kind :: kinds) batch
        (.ran (.loadRecords kind targetKeyVersion limit skipped) rows seen :: events)
  | some {kind : EncryptedRecordKind} {kinds : List EncryptedRecordKind}
      {rows : List EncryptionRow} {seen : Nat} (nonempty : recordsOf rows ≠ []) :
      Loaded targetKeyVersion limit skipped (kind :: kinds) (recordsOf rows)
        [.ran (.loadRecords kind targetKeyVersion limit skipped) rows seen]

/-- The events of `update_rotation_batch`. -/
inductive Updated (keyVersion updatedAt : Nat) :
    List EncryptedRecord → List EncryptionEvent → Prop where
  | nil : Updated keyVersion updatedAt [] []
  | cons {record : EncryptedRecord} {records : List EncryptedRecord} {rows : List EncryptionRow}
      {seen : Nat} {events : List EncryptionEvent}
      (rest : Updated keyVersion updatedAt records events) :
      Updated keyVersion updatedAt (record :: records)
        (.ran (.updateRecord record.recordId record.encryptedPayload keyVersion updatedAt) rows
          seen :: events)

/-- The events of a unit of work of another service. -/
inductive OrdinaryRun : List OrdinaryStatement → List EncryptionEvent → Prop where
  | nil : OrdinaryRun [] []
  | cons {statement : OrdinaryStatement} {statements : List OrdinaryStatement}
      {rows : List EncryptionRow} {seen : Nat} {events : List EncryptionEvent}
      (rest : OrdinaryRun statements events) :
      OrdinaryRun (statement :: statements) (.ran (.ordinary statement) rows seen :: events)

/-! ## Logs -/

/-- The log of a call that has come to its answer. -/
inductive Outcome : EncryptionCall → EncryptionAnswer → List EncryptionEvent → Prop where
  | started {process : Nat} {nonces : Nat → Nonce} {nonce : Nonce} {pepper : Pepper} {now s s' : Nat}
      {rows usage : List EncryptionRow} {legacy keys last : List EncryptionEvent}
      (checked : LegacyChecked legacy)
      (registers : KeysRegistered settings (settings.keyring process)
        (rows.filterMap EncryptionRow.registered.unwrap) nonces now
        (settings.keyring process).versions keys)
      (ensures : PepperEnsured settings (settings.keyring process) nonce pepper now last) :
      Outcome (.ensureKeyring process nonces nonce pepper) .started
        ([.clock now, .ran .listKeys rows s] ++ legacy ++ keys ++ [.ran .usage usage s'] ++ last)
  | pepper {process seen : Nat} {rows : List EncryptionRow} {record : EncryptedRecord}
      {bytes : Bytes} (isThere : firstRecord? rows = some record)
      (opened : decryptRecord settings.aead (settings.keyring process) record = some bytes) :
      Outcome (.idempotencyPepper process) (.pepper bytes)
        [.ran (.getSystemSecret idempotencySecretName) rows seen]
  | requested {process : Nat} {actorUserId jobId : Uuid} {now s s' : Nat}
      {usage rows : List EncryptionRow} {created job : KeyRotationJob}
      (key : created.keyRotationJobId = jobId) (waits : created.state = .pending)
      (target : created.targetKeyVersion = (settings.keyring process).primaryVersion)
      (first : created.processedCount = 0) :
      Outcome (.requestRotation process actorUserId jobId) (.requested job)
        [.clock now, .ran .usage usage s, .ran (.createRotationJob created) rows s']
  | idle {process : Nat} {workerId : String} {acquired : Bool} {skippedJobs : List Uuid}
      {skipped : List RecordId} {nonces : RecordId → Nonce} {now s : Nat}
      {rows : List EncryptionRow} (none : firstJob? rows = .none) :
      Outcome (.processRotationBatch process workerId acquired skippedJobs skipped nonces) .idle
        [.clock now,
          .ran (.claimRotationJob workerId now (now + rotationLease) acquired skippedJobs) rows s]
  | processed {process : Nat} {workerId : String} {acquired : Bool} {skippedJobs : List Uuid}
      {skipped : List RecordId} {nonces : RecordId → Nonce} {now s s' s'' : Nat}
      {rows usage rows' : List EncryptionRow} {job : KeyRotationJob}
      {batch rotated : List EncryptedRecord} {loads updates : List EncryptionEvent}
      (isClaimed : firstJob? rows = some job)
      (target : job.targetKeyVersion = (settings.keyring process).primaryVersion)
      (loaded : Loaded job.targetKeyVersion settings.batchSize skipped recordKinds batch loads)
      (rotates : (batch.mapM fun record => reencrypt settings.aead (settings.keyring process)
        (nonces record.recordId) job.targetKeyVersion record) = some rotated)
      (updated : Updated job.targetKeyVersion now rotated updates) :
      Outcome (.processRotationBatch process workerId acquired skippedJobs skipped nonces)
        (.processed job.keyRotationJobId)
        ([.clock now,
            .ran (.claimRotationJob workerId now (now + rotationLease) acquired skippedJobs) rows s]
          ++ loads ++ updates ++ [.ran .usage usage s'] ++
          [.ran (.updateRotationJob job.keyRotationJobId
              (if remainingCount job.targetKeyVersion (usagesOf usage) = 0 then .succeeded
                else .pending)
              rotated.length (remainingCount job.targetKeyVersion (usagesOf usage)) now none none)
              rows' s''])
  | recorded {jobId : Uuid} {targetKeyVersion now s s' : Nat} {usage rows : List EncryptionRow} :
      Outcome (.recordFailure jobId targetKeyVersion) .recorded
        [.ran .usage usage s, .clock now,
          .ran (.updateRotationJob jobId .failed 0
            (remainingCount targetKeyVersion (usagesOf usage)) now none
            (some "key_rotation_failed")) rows s']
  | written {statements : List OrdinaryStatement} {log : List EncryptionEvent}
      (run : OrdinaryRun statements log) : Outcome (.ordinary statements) .written log

/-! ## Programs -/

variable {settings} {told : EncryptionStatement → List EncryptionRow → Prop} {α : Type}
  {Q : α → List EncryptionEvent → Prop} {log : List EncryptionEvent}

variable {keyring : MasterKeyring Key} {next : Unit → EncryptionProgram α}

theorem ends_checkLegacy {registered : List EncryptionKeyRecord}
    (each : ∀ events, LegacyChecked events → Ends told Q (log ++ events) (next ())) :
    Ends told Q log (checkLegacy settings keyring registered >>= next) := by
  rw [checkLegacy]
  by_cases empty : registered.isEmpty = true
  · rw [if_pos empty, bind_assoc, execute_bind]
    refine ends_run fun rows seen _ => ?_
    have rest := each [.ran .getMasterKeyCheck rows seen] .read
    match rows with
    | .masterKeyCheck legacy :: _ => exact ends_ofAnswer fun _ _ => rest
    | [] => exact rest
    | .registry _ :: _ => exact rest
    | .record _ :: _ => exact rest
    | .job _ :: _ => exact rest
    | .business _ :: _ => exact rest
    | .usage _ :: _ => exact rest
  · rw [if_neg empty]
    have rest := each [] .registered
    rw [List.append_nil] at rest
    exact rest

theorem ends_registerKeys {registered : List EncryptionKeyRecord}
    {nonces : Nat → Nonce} {now : Nat} {versions : List Nat}
    (each : ∀ events, KeysRegistered settings keyring registered nonces now versions events →
      Ends told Q (log ++ events) (next ())) :
    Ends told Q log (registerKeys settings keyring registered nonces now versions >>= next) := by
  induction versions generalizing log with
  | nil =>
      have rest := each [] .nil
      rw [List.append_nil] at rest
      exact rest
  | cons version versions ih =>
      rw [registerKeys]
      cases present : registered.find? fun record => decide (record.keyVersion = version) with
      | none =>
          simp only [bind_assoc]
          refine ends_orFail fun envelope made => ends_run fun rows seen _ => ?_
          refine ih fun events rest => ?_
          rw [List.append_assoc]
          exact each _ (.added present made rest)
      | some record =>
          simp only [bind_assoc]
          refine ends_raiseIf fun valid => ih fun events rest => ?_
          exact each _ (.found present (by simpa using valid) rest)

theorem ends_ensurePepper {nonce : Nonce} {pepper : Pepper}
    {now : Nat}
    (each : ∀ events, PepperEnsured settings keyring nonce pepper now events →
      Ends told Q (log ++ events) (next ())) :
    Ends told Q log (ensurePepper settings keyring nonce pepper now >>= next) := by
  rw [ensurePepper, bind_assoc, execute_bind]
  refine ends_run fun rows seen _ => ?_
  cases found : firstRecord? rows with
  | some record => exact each _ (.found found)
  | none =>
      simp only [bind_assoc]
      refine ends_orFail fun made isMade => ends_run fun rows' seen' _ => ?_
      rw [List.append_assoc]
      exact each _ (.stored found isMade)

theorem ends_loadRotationBatch {targetKeyVersion limit : Nat} {skipped : List RecordId}
    {kinds : List EncryptedRecordKind} {next : List EncryptedRecord → EncryptionProgram α}
    (each : ∀ batch events, Loaded targetKeyVersion limit skipped kinds batch events →
      Ends told Q (log ++ events) (next batch)) :
    Ends told Q log (loadRotationBatch targetKeyVersion limit skipped kinds >>= next) := by
  induction kinds generalizing log with
  | nil =>
      have rest := each [] [] .nil
      rw [List.append_nil] at rest
      exact rest
  | cons kind kinds ih =>
      rw [loadRotationBatch, run_bind]
      refine ends_run fun rows seen _ => ?_
      by_cases empty : (recordsOf rows).isEmpty = true
      · rw [if_pos empty]
        refine ih fun batch events rest => ?_
        rw [List.append_assoc]
        exact each _ _ (.none (List.isEmpty_iff.mp empty) rest)
      · rw [if_neg empty]
        exact each _ _ (.some fun none => empty (List.isEmpty_iff.mpr none))

theorem ends_updateRotationBatch {keyVersion updatedAt : Nat} {records : List EncryptedRecord}
    (each : ∀ events, Updated keyVersion updatedAt records events →
      Ends told Q (log ++ events) (next ())) :
    Ends told Q log (updateRotationBatch keyVersion updatedAt records >>= next) := by
  induction records generalizing log with
  | nil =>
      have rest := each [] .nil
      rw [List.append_nil] at rest
      exact rest
  | cons record records ih =>
      refine ends_run fun rows seen _ => ih fun events rest => ?_
      rw [List.append_assoc]
      exact each _ (.cons rest)

theorem ends_ordinaryWrites {statements : List OrdinaryStatement}
    {Q : EncryptionAnswer → List EncryptionEvent → Prop}
    (each : ∀ events, OrdinaryRun statements events → Q .written (log ++ events)) :
    Ends told Q log (ordinaryWrites statements) := by
  induction statements generalizing log with
  | nil =>
      have rest := each [] .nil
      rw [List.append_nil] at rest
      exact ends_done rest
  | cons statement statements ih =>
      refine ends_run fun rows seen _ => ih fun events rest => ?_
      rw [List.append_assoc]
      exact each _ (.cons rest)

/-- **Every call** that comes to its end has one of these logs. -/
theorem ends_program (call : EncryptionCall) :
    Ends told (Outcome settings call) [] (call.program settings) := by
  cases call with
  | ensureKeyring process nonces nonce pepper =>
      refine ends_clock fun now => ends_run fun rows s _ => ends_checkLegacy fun legacy checked => ?_
      refine ends_registerKeys fun keys registers => ends_run fun usage s' _ => ?_
      refine ends_raiseIf fun _ => ends_ensurePepper fun last ensures => ends_done ?_
      exact .started checked registers ensures
  | idempotencyPepper process =>
      refine ends_run fun rows seen _ => ends_orFail fun record isThere => ?_
      exact ends_orFail fun bytes opened => ends_done (.pepper isThere opened)
  | requestRotation process actorUserId jobId =>
      refine ends_clock fun now => ends_run fun usage s _ => ends_run fun rows s' _ => ?_
      exact ends_orFail fun job _ => ends_done (.requested rfl rfl rfl rfl)
  | processRotationBatch process workerId acquired skippedJobs skipped nonces =>
      refine ends_clock fun now => ends_run fun rows s _ => ?_
      rw [Program.bind]
      cases isClaimed : firstJob? rows with
      | none =>
          refine ends_done ?_
          exact .idle isClaimed
      | some job =>
          refine ends_raiseIf fun target => ?_
          refine ends_loadRotationBatch fun batch loads loaded => ?_
          refine ends_orFail fun rotated rotates => ?_
          refine ends_updateRotationBatch fun updates updated => ends_run fun usage s' _ => ?_
          refine ends_run fun rows' s'' _ => ends_done ?_
          exact .processed isClaimed (by simpa using target) loaded rotates updated
  | recordFailure jobId targetKeyVersion =>
      refine ends_run fun usage s _ => ends_clock fun now => ends_run fun rows s' _ => ?_
      exact ends_done .recorded
  | ordinary statements => exact ends_ordinaryWrites fun events run => .written run

end Outcomes

end OpsComposer.Encryption
