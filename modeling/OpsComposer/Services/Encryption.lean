import OpsComposer.Repositories.Encryption

/-!
# The service of master keys

The operations of `EncryptionService`, each as the program of its unit of work.
`process_rotation_batch` has two: the batch, and after an exception the one that records the
failure.  What the random source, the advisory lock and the locks of other transactions
decide comes with the call.  The audit events and the permission checks are left out.
-/

set_option autoImplicit false

namespace OpsComposer.Encryption

open Domain (Uuid)
open Foundations Services

/-- The exceptions that the operations raise. -/
inductive EncryptionError where
  /-- `KeyVersionMissingError`. -/
  | keyVersionMissing
  /-- Any exception that is no `OpsError`. -/
  | fault
  deriving DecidableEq

/-- What a process is started with, and the decoding of base64 texts. -/
structure EncryptionSettings (Key : Type) where
  aead : Aead Key
  b64decode : Text → Option Bytes
  /-- The keyring of each process. -/
  keyring : Nat → MasterKeyring Key
  /-- `ROTATION_BATCH_SIZE`. -/
  batchSize : Nat

/-- What `os.urandom(32)` returns. -/
structure Pepper where
  bytes : Bytes
  length_bytes : bytes.length = 32

/-- `IDEMPOTENCY_SECRET_NAME`. -/
def idempotencySecretName : String := "run-idempotency-pepper"

/-- `ROTATION_LEASE`, in seconds. -/
def rotationLease : Nat := 30

/-! ## Envelopes -/

/-- The context of a record in its envelope. -/
def RecordId.aad : RecordId → Aad
  | .credential credentialId revision => .credential credentialId revision
  | .mfa userId => .record "totp" userId
  | .system secretName => .named "system-secret" secretName
  | .runSecret runId => .record "run-parameters" runId

section Envelopes

variable {Key : Type} (aead : Aead Key) (keyring : MasterKeyring Key)

/-- `decrypt_bytes` with the purpose of the record. -/
def decryptRecord (record : EncryptedRecord) : Option Bytes :=
  keyring.decryptWithAad aead record.encryptedPayload record.recordId.aad
    record.encryptionKeyVersion

/-- `_reencrypt`. -/
def reencrypt (nonce : Nonce) (targetVersion : Nat) (record : EncryptedRecord) :
    Option EncryptedRecord := do
  let envelope ←
    match record.recordId with
    | .credential credentialId revision => do
        let secret ← CredentialCipher.decrypt aead keyring credentialId revision
          record.encryptedPayload record.encryptionKeyVersion
        CredentialCipher.encrypt aead keyring nonce credentialId revision secret
    | recordId => do
        let plaintext ← decryptRecord aead keyring record
        let made ← keyring.encryptWithAad aead nonce plaintext recordId.aad (some targetVersion)
        some made.1
  return { record with encryptedPayload := envelope, encryptionKeyVersion := targetVersion }

end Envelopes

/-! ## Programs -/

/-- What an operation returns. -/
inductive EncryptionAnswer where
  | started
  | pepper (bytes : Bytes)
  | requested (job : KeyRotationJob)
  /-- `process_rotation_batch` returns false. -/
  | idle
  | processed (jobId : Uuid)
  | recorded
  | written

/-- A unit of work of the service. -/
abbrev EncryptionProgram := Program EncryptionStatement EncryptionRow EncryptionError

open Program (orFail raiseIf ofAnswer)

/-- The rotation that a query has returned. -/
def firstJob? : List EncryptionRow → Option KeyRotationJob
  | .job row :: _ => some row
  | _ => none

/-- The record that a query has returned. -/
def firstRecord? : List EncryptionRow → Option EncryptedRecord
  | .record row :: _ => some row
  | _ => none

/-- The records of a result, in the order of the query. -/
def recordsOf (rows : List EncryptionRow) : List EncryptedRecord :=
  (rows.filterMap EncryptionRow.records.unwrap).insertionSort
    fun a b => RecordId.le a.recordId b.recordId = true

/-- The counts that a query has returned. -/
def usagesOf (rows : List EncryptionRow) : List EncryptionUsage :=
  rows.filterMap fun
    | .usage usage => some usage
    | _ => none

/-- The number of the records that are not under a key version. -/
def remainingCount (targetKeyVersion : Nat) (usage : List EncryptionUsage) : Nat :=
  ((usage.filter fun item => decide (item.keyVersion ≠ targetKeyVersion)).map
    EncryptionUsage.totalCount).sum

/-- A member of the setting. -/
def MasterKeyCheck.get? (check : MasterKeyCheck) (name : String) : Option Json :=
  (check.members.find? fun member => decide (member.1 = text name)).map Prod.snd

/-- The version in the setting, where it is an `int`. -/
def MasterKeyCheck.version? (check : MasterKeyCheck) : Option Int :=
  match check.get? "version" with
  | some (.int version) => some version
  | some (.bool version) => some (if version then 1 else 0)
  | _ => none

/-- The envelope in the setting, where it is a `str`. -/
def MasterKeyCheck.envelope? (check : MasterKeyCheck) : Option Text :=
  match check.get? "envelope" with
  | some (.str envelope) => some envelope
  | _ => none

section Operations

variable {Key : Type} (settings : EncryptionSettings Key)

/-- What the legacy setting has to hold. -/
def validateLegacy (keyring : MasterKeyring Key) (legacy : MasterKeyCheck) :
    Except EncryptionError Unit :=
  match legacy.version?, legacy.envelope? with
  | some version, some encoded =>
      if version < 0 ∨ !keyring.hasVersion version.toNat then .error .keyVersionMissing
      else
        match settings.b64decode encoded with
        | none => .error .fault
        | some envelope =>
            if keyring.validateLegacyCheck settings.aead version.toNat envelope then .ok ()
            else .error .fault
  | _, _ => .error .fault

/-- The check of the legacy setting, when no key is registered. -/
def checkLegacy (keyring : MasterKeyring Key) (registered : List EncryptionKeyRecord) :
    EncryptionProgram Unit :=
  if registered.isEmpty then do
    let rows ← Program.execute .getMasterKeyCheck
    match rows with
    | .masterKeyCheck legacy :: _ => ofAnswer (validateLegacy settings keyring legacy)
    | _ => return ()
  else return ()

/-- The loop over the versions of the keyring. -/
def registerKeys (keyring : MasterKeyring Key) (registered : List EncryptionKeyRecord)
    (nonces : Nat → Nonce) (now : Nat) : List Nat → EncryptionProgram Unit
  | [] => .done ()
  | version :: versions =>
      match registered.find? fun record => decide (record.keyVersion = version) with
      | none => do
          let envelope ← orFail .fault
            (keyring.encryptCheck settings.aead (nonces version) version)
          let _ ← Program.execute (.addKey ⟨version, envelope, now, none⟩)
          registerKeys keyring registered nonces now versions
      | some record => do
          raiseIf .fault
            (!keyring.validateCheck settings.aead version record.verificationEnvelope)
          registerKeys keyring registered nonces now versions

/-- The pepper, when there is none. -/
def ensurePepper (keyring : MasterKeyring Key) (nonce : Nonce) (pepper : Pepper) (now : Nat) :
    EncryptionProgram Unit := do
  let rows ← Program.execute (.getSystemSecret idempotencySecretName)
  match firstRecord? rows with
  | some _ => return ()
  | none => do
      let made ← orFail .fault (keyring.encryptWithAad settings.aead nonce pepper.bytes
        (RecordId.aad (.system idempotencySecretName)) none)
      let _ ← Program.execute (.putSystemSecret idempotencySecretName made.1 made.2 now)
      return ()

/-- `ensure_keyring`, with what the process draws for it. -/
def ensureKeyring (process : Nat) (nonces : Nat → Nonce) (nonce : Nonce) (pepper : Pepper) :
    EncryptionProgram EncryptionAnswer := do
  let keyring := settings.keyring process
  let now ← Program.now
  let rows ← Program.execute .listKeys
  let registered := rows.filterMap EncryptionRow.registered.unwrap
  checkLegacy settings keyring registered
  registerKeys settings keyring registered nonces now keyring.versions
  let usage ← Program.execute .usage
  raiseIf .keyVersionMissing ((usagesOf usage).any fun item =>
    decide (0 < item.totalCount) && !keyring.hasVersion item.keyVersion)
  ensurePepper settings keyring nonce pepper now
  return .started

/-- `idempotency_pepper`. -/
def idempotencyPepper (process : Nat) : EncryptionProgram EncryptionAnswer := do
  let rows ← Program.execute (.getSystemSecret idempotencySecretName)
  let envelope ← orFail .fault (firstRecord? rows)
  let bytes ← orFail .fault (decryptRecord settings.aead (settings.keyring process) envelope)
  return .pepper bytes

/-- `request_rotation`. -/
def requestRotation (process : Nat) (actorUserId jobId : Uuid) :
    EncryptionProgram EncryptionAnswer := do
  let target := (settings.keyring process).primaryVersion
  let now ← Program.now
  let usage ← Program.execute .usage
  let rows ← Program.execute (.createRotationJob
    { keyRotationJobId := jobId
      targetKeyVersion := target
      state := .pending
      requestedBy := actorUserId
      processedCount := 0
      remainingCount := some (remainingCount target (usagesOf usage))
      createdAt := now
      updatedAt := now })
  let job ← orFail .fault (firstJob? rows)
  return .requested job

/-- `load_rotation_batch`: the records of the first kind that has some. -/
def loadRotationBatch (targetKeyVersion limit : Nat) (skipped : List RecordId) :
    List EncryptedRecordKind → EncryptionProgram (List EncryptedRecord)
  | [] => .done []
  | kind :: kinds =>
      .run (.loadRecords kind targetKeyVersion limit skipped) fun rows =>
        if (recordsOf rows).isEmpty then loadRotationBatch targetKeyVersion limit skipped kinds
        else .done (recordsOf rows)

/-- The kinds, in the order in which they are loaded. -/
def recordKinds : List EncryptedRecordKind := [.credential, .mfa, .system, .runSecret]

/-- `update_rotation_batch`. -/
def updateRotationBatch (keyVersion updatedAt : Nat) :
    List EncryptedRecord → EncryptionProgram Unit
  | [] => .done ()
  | record :: records =>
      .run (.updateRecord record.recordId record.encryptedPayload keyVersion updatedAt) fun _ =>
        updateRotationBatch keyVersion updatedAt records

/-- The transaction of a batch in `process_rotation_batch`. -/
def processRotationBatch (process : Nat) (workerId : String) (acquired : Bool)
    (skippedJobs : List Uuid) (skipped : List RecordId) (nonces : RecordId → Nonce) :
    EncryptionProgram EncryptionAnswer := do
  let keyring := settings.keyring process
  let now ← Program.now
  let rows ← Program.execute
    (.claimRotationJob workerId now (now + rotationLease) acquired skippedJobs)
  match firstJob? rows with
  | none => return .idle
  | some job => do
      raiseIf .keyVersionMissing (job.targetKeyVersion ≠ keyring.primaryVersion)
      let batch ← loadRotationBatch job.targetKeyVersion settings.batchSize skipped recordKinds
      let rotated ← orFail .fault (batch.mapM fun record =>
        reencrypt settings.aead keyring (nonces record.recordId) job.targetKeyVersion record)
      updateRotationBatch job.targetKeyVersion now rotated
      let usage ← Program.execute .usage
      let remaining := remainingCount job.targetKeyVersion (usagesOf usage)
      let _ ← Program.execute (.updateRotationJob job.keyRotationJobId
        (if remaining = 0 then .succeeded else .pending) rotated.length remaining now none none)
      return .processed job.keyRotationJobId

/-- The transaction that records the failure of a batch of the job. -/
def recordFailure (jobId : Uuid) (targetKeyVersion : Nat) : EncryptionProgram EncryptionAnswer := do
  let usage ← Program.execute .usage
  let remaining := remainingCount targetKeyVersion (usagesOf usage)
  let now ← Program.now
  let _ ← Program.execute (.updateRotationJob jobId .failed 0 remaining now none
    (some "key_rotation_failed"))
  return .recorded

end Operations

/-- Any unit of work of the other services. -/
def ordinaryWrites : List OrdinaryStatement → EncryptionProgram EncryptionAnswer
  | [] => .done .written
  | statement :: statements => .run (.ordinary statement) fun _ => ordinaryWrites statements

/-! ## Calls -/

/-- A call of the service, with what is drawn for it. -/
inductive EncryptionCall where
  | ensureKeyring (process : Nat) (nonces : Nat → Nonce) (nonce : Nonce) (pepper : Pepper)
  | idempotencyPepper (process : Nat)
  | requestRotation (process : Nat) (actorUserId jobId : Uuid)
  | processRotationBatch (process : Nat) (workerId : String) (acquired : Bool)
      (skippedJobs : List Uuid) (skipped : List RecordId) (nonces : RecordId → Nonce)
  | recordFailure (jobId : Uuid) (targetKeyVersion : Nat)
  | ordinary (statements : List OrdinaryStatement)

section Service

variable {Key : Type} (settings : EncryptionSettings Key)

/-- The program of a call. -/
def EncryptionCall.program : EncryptionCall → EncryptionProgram EncryptionAnswer
  | .ensureKeyring process nonces nonce pepper =>
      Encryption.ensureKeyring settings process nonces nonce pepper
  | .idempotencyPepper process => Encryption.idempotencyPepper settings process
  | .requestRotation process actorUserId jobId =>
      Encryption.requestRotation settings process actorUserId jobId
  | .processRotationBatch process workerId acquired skippedJobs skipped nonces =>
      Encryption.processRotationBatch settings process workerId acquired skippedJobs skipped nonces
  | .recordFailure jobId targetKeyVersion => Encryption.recordFailure jobId targetKeyVersion
  | .ordinary statements => ordinaryWrites statements

/-- The encryption as a service on a database. -/
def encryptionService :
    Service EncryptionStore EncryptionKey EncryptionRow EncryptionStatement EncryptionError
      EncryptionAnswer EncryptionCall where
  program := EncryptionCall.program settings
  meaning := EncryptionStatement.meaning
  clash := EncryptionRow.clash
  constraint _ := true

end Service

/-- The database of the encryption, with its transactions. -/
abbrev EncryptionDb :=
  Db EncryptionStore EncryptionKey EncryptionRow EncryptionStatement EncryptionError
    EncryptionAnswer EncryptionCall

/-- A transaction on it. -/
abbrev EncryptionTxn :=
  Txn EncryptionStore EncryptionKey EncryptionRow EncryptionStatement EncryptionError
    EncryptionAnswer EncryptionCall

/-- An event in the log of such a transaction. -/
abbrev EncryptionEvent := Event EncryptionStatement EncryptionRow

/-- The database as the processes step it. -/
abbrev EncryptionWorld :=
  DbWorld EncryptionStore EncryptionKey EncryptionRow EncryptionStatement EncryptionError
    EncryptionAnswer EncryptionCall

/-- Keys and encrypted records as a transition system, from one of the given stores on. -/
def encryptionSystem {Key : Type} (settings : EncryptionSettings Key)
    (initial : EncryptionStore → Prop) : System EncryptionWorld (DbAct EncryptionCall) :=
  (encryptionService settings).system initial

end OpsComposer.Encryption
