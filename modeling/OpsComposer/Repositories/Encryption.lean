import OpsComposer.Foundations.Chronicle
import OpsComposer.Foundations.OrderedLimit
import OpsComposer.Foundations.RowQueries
import OpsComposer.Services.Crypto

/-!
# Keys, encrypted records and rotation jobs

The rows of `encryption_key_registry`, `key_rotation_jobs` and of the four tables that hold
encrypted records, and the statements of `PostgresEncryptionRepository` on them, with the
statements by which the other services write such records.

An encrypted record of any table is an `EncryptedRecord`, told by its table and its primary
key.  Which advisory lock is free, and which rows `SKIP LOCKED` passes over, a statement does
not see in its snapshot: that comes with it.
-/

set_option autoImplicit false

namespace OpsComposer.Encryption

open Domain (Uuid)
open Foundations Services

/-! ## Rows -/

/-- A row of `encryption_key_registry`. -/
structure EncryptionKeyRecord where
  keyVersion : Nat
  verificationEnvelope : Bytes
  registeredAt : Nat
  retiredAt : Option Nat := none
  deriving DecidableEq

/-- The states of a rotation. -/
inductive KeyRotationState where
  | pending
  | running
  | succeeded
  | failed
  deriving DecidableEq

namespace KeyRotationState

/-- The states of `uq_key_rotation_jobs_active`. -/
def isActive : KeyRotationState → Bool
  | .pending => true
  | .running => true
  | .succeeded => false
  | .failed => false

end KeyRotationState

/-- A row of `key_rotation_jobs`. -/
structure KeyRotationJob where
  keyRotationJobId : Uuid
  targetKeyVersion : Nat
  state : KeyRotationState
  requestedBy : Uuid
  claimedBy : Option String := none
  leaseExpiresAt : Option Nat := none
  processedCount : Nat
  remainingCount : Option Nat := none
  errorCode : Option String := none
  createdAt : Nat
  startedAt : Option Nat := none
  finishedAt : Option Nat := none
  updatedAt : Nat
  deriving DecidableEq

/-- The four tables with ciphertexts. -/
inductive EncryptedRecordKind where
  | credential
  | mfa
  | system
  | runSecret
  deriving DecidableEq

/-- `kind`, `record_id` and `sub_id` of a record: the primary key of its row. -/
inductive RecordId where
  | credential (credentialId : Uuid) (revision : Nat)
  | mfa (userId : Uuid)
  | system (secretName : String)
  | runSecret (runId : Uuid)
  deriving DecidableEq

namespace RecordId

/-- The table that a record is in. -/
def kind : RecordId → EncryptedRecordKind
  | .credential _ _ => .credential
  | .mfa _ => .mfa
  | .system _ => .system
  | .runSecret _ => .runSecret

/-- The order in which the records of one kind are loaded. -/
def le : RecordId → RecordId → Bool
  | .credential credentialId revision, .credential credentialId' revision' =>
      decide (credentialId < credentialId' ∨ (credentialId = credentialId' ∧ revision ≤ revision'))
  | .mfa userId, .mfa userId' => decide (userId ≤ userId')
  | .system secretName, .system secretName' => decide (secretName ≤ secretName')
  | .runSecret runId, .runSecret runId' => decide (runId ≤ runId')
  | _, _ => true

end RecordId

/-- The columns of a record that no encryption is about. -/
inductive RecordColumns where
  | credential (updatedAt : Nat)
  | mfa (lastAcceptedStep confirmedAt : Option Nat) (createdAt updatedAt : Nat)
  | system (updatedAt : Nat)
  | runSecret (parameterNames : List Text) (createdAt : Nat)
  deriving DecidableEq

namespace RecordColumns

/-- `updated_at`, where there is one. -/
def updated (now : Nat) : RecordColumns → RecordColumns
  | .credential _ => .credential now
  | .mfa lastAcceptedStep confirmedAt createdAt _ => .mfa lastAcceptedStep confirmedAt createdAt now
  | .system _ => .system now
  | .runSecret parameterNames createdAt => .runSecret parameterNames createdAt

end RecordColumns

/-- A ciphertext as it is stored, with the version of its key. -/
structure EncryptedRecord where
  recordId : RecordId
  encryptedPayload : Bytes
  encryptionKeyVersion : Nat
  columns : RecordColumns
  deriving DecidableEq

/-- The setting `encryption.master-key-check`. -/
structure MasterKeyCheck where
  members : List (Text × Json)

/-- A row of a table without encrypted columns: its revision and its version. -/
structure BusinessRow where
  table : String
  recordId : Uuid
  revision : Nat
  version : Nat
  deriving DecidableEq

/-- A row that `usage` returns. -/
structure EncryptionUsage where
  keyVersion : Nat
  credentialCount : Nat
  mfaCount : Nat
  systemCount : Nat
  runSecretCount : Nat

/-- `total_count`. -/
def EncryptionUsage.totalCount (usage : EncryptionUsage) : Nat :=
  usage.credentialCount + usage.mfaCount + usage.systemCount + usage.runSecretCount

/-- What a row is found by. -/
inductive EncryptionKey where
  | registry (keyVersion : Nat)
  | record (recordId : RecordId)
  | job (jobId : Uuid)
  | masterKeyCheck
  | business (table : String) (recordId : Uuid)
  /-- Rows that are returned only have keys too. -/
  | usage (keyVersion : Nat)
  deriving DecidableEq

/-- A row of one of the tables. -/
inductive EncryptionRow where
  | registry (row : EncryptionKeyRecord)
  | record (row : EncryptedRecord)
  | job (row : KeyRotationJob)
  | masterKeyCheck (row : MasterKeyCheck)
  | business (row : BusinessRow)
  | usage (row : EncryptionUsage)

namespace EncryptionRow

/-- The key of a row. -/
def key : EncryptionRow → EncryptionKey
  | .registry row => .registry row.keyVersion
  | .record row => .record row.recordId
  | .job row => .job row.keyRotationJobId
  | .masterKeyCheck _ => .masterKeyCheck
  | .business row => .business row.table row.recordId
  | .usage row => .usage row.keyVersion

/-- The rows of `encryption_key_registry`. -/
def registered : RowKind EncryptionRow EncryptionKeyRecord where
  wrap := .registry
  unwrap
    | .registry row => some row
    | _ => none

/-- The rows with ciphertexts. -/
def records : RowKind EncryptionRow EncryptedRecord where
  wrap := .record
  unwrap
    | .record row => some row
    | _ => none

/-- The rows of `key_rotation_jobs`. -/
def jobs : RowKind EncryptionRow KeyRotationJob where
  wrap := .job
  unwrap
    | .job row => some row
    | _ => none

/-- The rows of the tables without a ciphertext. -/
def businessRows : RowKind EncryptionRow BusinessRow where
  wrap := .business
  unwrap
    | .business row => some row
    | _ => none

/-- `uq_key_rotation_jobs_active`. -/
def clash : EncryptionRow → EncryptionRow → Bool
  | .job row, .job other => row.state.isActive && other.state.isActive
  | _, _ => false

end EncryptionRow

/-- The tables that the service reads and writes. -/
abbrev EncryptionStore := Table EncryptionRow.key

namespace EncryptionStore

variable (store : EncryptionStore)

/-- The registration of a version. -/
def registered? (keyVersion : Nat) : Option EncryptionKeyRecord :=
  EncryptionRow.registered.at? store (.registry keyVersion)

/-- The record with this identity. -/
def record? (recordId : RecordId) : Option EncryptedRecord :=
  EncryptionRow.records.at? store (.record recordId)

/-- The rotation with this identifier. -/
def job? (jobId : Uuid) : Option KeyRotationJob := EncryptionRow.jobs.at? store (.job jobId)

/-- The row of a business table. -/
def business? (table : String) (recordId : Uuid) : Option BusinessRow :=
  EncryptionRow.businessRows.at? store (.business table recordId)

/-- All encrypted records. -/
def records : List EncryptedRecord := store.rows.filterMap EncryptionRow.records.unwrap

/-- The rows of the registry, in the order of their versions. -/
def registry : List EncryptionKeyRecord :=
  (store.rows.filterMap EncryptionRow.registered.unwrap).insertionSort
    fun a b => a.keyVersion ≤ b.keyVersion

/-- The key versions that `usage` tells about. -/
def versions : List Nat :=
  ((store.registry.map EncryptionKeyRecord.keyVersion ++
    store.records.map EncryptedRecord.encryptionKeyVersion).dedup).insertionSort (· ≤ ·)

/-- The number of the records of one kind under one key version. -/
def count (kind : EncryptedRecordKind) (keyVersion : Nat) : Nat :=
  store.records.countP fun record =>
    decide (record.recordId.kind = kind ∧ record.encryptionKeyVersion = keyVersion)

/-- `usage`: how many records of each kind have the version. -/
def usage (keyVersion : Nat) : EncryptionUsage where
  keyVersion := keyVersion
  credentialCount := store.count .credential keyVersion
  mfaCount := store.count .mfa keyVersion
  systemCount := store.count .system keyVersion
  runSecretCount := store.count .runSecret keyVersion

end EncryptionStore

/-! ## Statements -/

/-- The statements by which the other services write records, and the rows of other
tables. -/
inductive OrdinaryStatement where
  /-- A revision of a credential. -/
  | addCredentialEnvelope (credentialId : Uuid) (revision : Nat) (encryptedSecret : Bytes)
      (encryptionKeyVersion updatedAt : Nat)
  | putMfaFactor (userId : Uuid) (encryptedTotpSecret : Bytes)
      (encryptionKeyVersion createdAt updatedAt : Nat)
  | confirmMfaFactor (userId : Uuid) (confirmedAt : Nat)
  | acceptTotpStep (userId : Uuid) (step updatedAt : Nat)
  /-- `reset_mfa`, or the end of the user. -/
  | deleteMfaFactor (userId : Uuid)
  | addSecretInputs (runId : Uuid) (encryptedPayload : Bytes) (encryptionKeyVersion : Nat)
      (parameterNames : List Text) (createdAt : Nat)
  /-- `consume_secret_inputs`, or the end of the run. -/
  | deleteSecretInputs (runId : Uuid)
  | setBusiness (row : BusinessRow)
  | deleteBusiness (table : String) (recordId : Uuid)

/-- The statements of the service. -/
inductive EncryptionStatement where
  | listKeys
  /-- `get_setting("encryption.master-key-check")`. -/
  | getMasterKeyCheck
  | addKey (record : EncryptionKeyRecord)
  | getSystemSecret (secretName : String)
  | putSystemSecret (secretName : String) (encryptedSecret : Bytes)
      (encryptionKeyVersion updatedAt : Nat)
  | usage
  | createRotationJob (job : KeyRotationJob)
  /-- Whether the advisory lock is acquired, and which jobs are locked, comes with it. -/
  | claimRotationJob (workerId : String) (now leaseExpiresAt : Nat) (acquired : Bool)
      (skipped : List Uuid)
  /-- One query of `load_rotation_batch`; which records are locked comes with it. -/
  | loadRecords (kind : EncryptedRecordKind) (targetKeyVersion limit : Nat)
      (skipped : List RecordId)
  /-- One statement of `update_rotation_batch`. -/
  | updateRecord (recordId : RecordId) (encryptedPayload : Bytes) (keyVersion updatedAt : Nat)
  | updateRotationJob (jobId : Uuid) (state : KeyRotationState) (processedIncrement : Nat)
      (remainingCount now : Nat) (leaseExpiresAt : Option Nat) (errorCode : Option String)
  | ordinary (statement : OrdinaryStatement)

/-- A job that can be claimed: it waits, or its lease has run out. -/
def claimable (now : Nat) (job : KeyRotationJob) : Bool :=
  decide (job.state = .pending) ||
    decide (job.state = .running) && job.leaseExpiresAt.any fun lease => decide (lease ≤ now)

/-- The order of the jobs that can be claimed. -/
def jobBefore (a b : KeyRotationJob) : Prop :=
  a.createdAt < b.createdAt ∨ (a.createdAt = b.createdAt ∧ a.keyRotationJobId ≤ b.keyRotationJobId)

instance : DecidableRel jobBefore := fun _ _ => inferInstanceAs (Decidable (_ ∨ _))

/-- The job that is to be claimed. -/
def candidates (store : EncryptionStore) (now : Nat) (acquired : Bool) (skipped : List Uuid) :
    List Uuid :=
  (orderedLimit jobBefore 1 ((store.rows.filterMap EncryptionRow.jobs.unwrap).filter fun job =>
    acquired && claimable now job && decide (job.keyRotationJobId ∉ skipped))).map
      KeyRotationJob.keyRotationJobId

/-- A job as `claim_rotation` writes it. -/
def claimed (workerId : String) (now leaseExpiresAt : Nat) (job : KeyRotationJob) :
    KeyRotationJob :=
  { job with
    state := .running
    claimedBy := some workerId
    leaseExpiresAt := some leaseExpiresAt
    startedAt := some (job.startedAt.getD now)
    updatedAt := now }

/-- What `update_rotation_job` leaves. -/
def updatedJob (state : KeyRotationState) (processedIncrement remainingCount now : Nat)
    (leaseExpiresAt : Option Nat) (errorCode : Option String) (job : KeyRotationJob) :
    KeyRotationJob :=
  { job with
    state := state
    processedCount := job.processedCount + processedIncrement
    remainingCount := some remainingCount
    leaseExpiresAt := leaseExpiresAt
    claimedBy := if state = .running then job.claimedBy else none
    errorCode := errorCode
    finishedAt := if state.isActive then none else some now
    updatedAt := now }

/-- A record of the kind is not yet under the target version. -/
def outdated (kind : EncryptedRecordKind) (targetKeyVersion : Nat) (record : EncryptedRecord) :
    Bool :=
  decide (record.recordId.kind = kind ∧ record.encryptionKeyVersion ≠ targetKeyVersion)

/-- The records that a query of `load_rotation_batch` chooses. -/
def chosen (store : EncryptionStore) (kind : EncryptedRecordKind) (targetKeyVersion limit : Nat)
    (skipped : List RecordId) : List RecordId :=
  orderedLimit (fun a b => RecordId.le a b = true) limit
    ((store.records.filter fun record =>
      outdated kind targetKeyVersion record && decide (record.recordId ∉ skipped)).map
        EncryptedRecord.recordId)

/-- What `update_rotation_batch` leaves of a record. -/
def rewritten (encryptedPayload : Bytes) (keyVersion updatedAt : Nat) (record : EncryptedRecord) :
    EncryptedRecord :=
  { record with
    encryptedPayload := encryptedPayload
    encryptionKeyVersion := keyVersion
    columns := record.columns.updated updatedAt }

/-- What the upsert of `put_mfa_factor` leaves in place of an old factor. -/
def replacedFactor (encryptedTotpSecret : Bytes) (encryptionKeyVersion updatedAt : Nat)
    (record : EncryptedRecord) : EncryptedRecord :=
  { record with
    encryptedPayload := encryptedTotpSecret
    encryptionKeyVersion := encryptionKeyVersion
    columns :=
      match record.columns with
      | .mfa _ _ createdAt _ => .mfa none none createdAt updatedAt
      | columns => columns }

/-- What the upsert of `put_system_secret` leaves in place of an old secret. -/
def replacedSecret (encryptedSecret : Bytes) (encryptionKeyVersion updatedAt : Nat)
    (record : EncryptedRecord) : EncryptedRecord :=
  { record with
    encryptedPayload := encryptedSecret
    encryptionKeyVersion := encryptionKeyVersion
    columns := .system updatedAt }

/-- The factor with other steps. -/
def withFactor (f : Option Nat → Option Nat → Option Nat × Option Nat) (updatedAt : Nat)
    (record : EncryptedRecord) : EncryptedRecord :=
  { record with
    columns :=
      match record.columns with
      | .mfa lastAcceptedStep confirmedAt createdAt _ =>
          .mfa (f lastAcceptedStep confirmedAt).1 (f lastAcceptedStep confirmedAt).2 createdAt
            updatedAt
      | columns => columns }

/-- The factor is confirmed, and no later step has been accepted. -/
def acceptsStep (step : Nat) (record : EncryptedRecord) : Bool :=
  match record.columns with
  | .mfa lastAcceptedStep confirmedAt _ _ =>
      confirmedAt.isSome && lastAcceptedStep.all fun last => decide (last < step)
  | _ => false

/-- A command on these tables. -/
abbrev EncryptionCommand := Command EncryptionStore EncryptionKey EncryptionRow

/-- An update of one record. -/
def setRecord (recordId : RecordId) (condition : EncryptedRecord → Bool)
    (f : EncryptedRecord → EncryptedRecord) (keeps : ∀ row, (f row).recordId = row.recordId) :
    EncryptionCommand :=
  .set (EncryptionRow.records.meets fun row => decide (row.recordId = recordId) && condition row)
    (EncryptionRow.records.map f)
    (EncryptionRow.records.map_keeps fun row => congrArg EncryptionKey.record (keeps row))

/-- An update of jobs. -/
def setJob (condition : KeyRotationJob → Bool) (f : KeyRotationJob → KeyRotationJob)
    (keeps : ∀ row, (f row).keyRotationJobId = row.keyRotationJobId) : EncryptionCommand :=
  .set (EncryptionRow.jobs.meets condition) (EncryptionRow.jobs.map f)
    (EncryptionRow.jobs.map_keeps fun row => congrArg EncryptionKey.job (keeps row))

/-- An insert of a record that takes the place of an old one. -/
def upsertRecord (row : EncryptedRecord) (f : EncryptedRecord → EncryptedRecord)
    (keeps : ∀ row, (f row).recordId = row.recordId) : EncryptionCommand :=
  .upsert (.record row) (EncryptionRow.records.map f)
    (EncryptionRow.records.map_keeps fun row => congrArg EncryptionKey.record (keeps row))

/-- A deletion of the record. -/
def deleteRecord (recordId : RecordId) : EncryptionCommand :=
  .delete (EncryptionRow.records.meets fun row => decide (row.recordId = recordId))

/-- What a statement of the other services does. -/
def OrdinaryStatement.meaning : OrdinaryStatement → EncryptionCommand
  | .addCredentialEnvelope credentialId revision encryptedSecret encryptionKeyVersion updatedAt =>
      .insert (.record ⟨.credential credentialId revision, encryptedSecret, encryptionKeyVersion,
        .credential updatedAt⟩) false
  | .putMfaFactor userId encryptedTotpSecret encryptionKeyVersion createdAt updatedAt =>
      upsertRecord ⟨.mfa userId, encryptedTotpSecret, encryptionKeyVersion,
          .mfa none none createdAt updatedAt⟩
        (replacedFactor encryptedTotpSecret encryptionKeyVersion updatedAt) fun _ => rfl
  | .confirmMfaFactor userId confirmedAt =>
      setRecord (.mfa userId) (fun _ => true)
        (withFactor (fun last _ => (last, some confirmedAt)) confirmedAt) fun _ => rfl
  | .acceptTotpStep userId step updatedAt =>
      setRecord (.mfa userId) (acceptsStep step)
        (withFactor (fun _ confirmed => (some step, confirmed)) updatedAt) fun _ => rfl
  | .deleteMfaFactor userId => deleteRecord (.mfa userId)
  | .addSecretInputs runId encryptedPayload encryptionKeyVersion parameterNames createdAt =>
      .insert (.record ⟨.runSecret runId, encryptedPayload, encryptionKeyVersion,
        .runSecret parameterNames createdAt⟩) false
  | .deleteSecretInputs runId => deleteRecord (.runSecret runId)
  | .setBusiness row =>
      .upsert (.business row)
        (EncryptionRow.businessRows.map fun old => { old with
          revision := row.revision
          version := row.version })
        (EncryptionRow.businessRows.map_keeps fun _ => rfl)
  | .deleteBusiness table recordId =>
      .delete (EncryptionRow.businessRows.meets fun row =>
        decide (row.table = table ∧ row.recordId = recordId))

/-- What a statement does to the tables, as they are when it starts. -/
def EncryptionStatement.meaning (statement : EncryptionStatement) (store : EncryptionStore) :
    EncryptionCommand :=
  match statement with
  | .listKeys => .select (store.registry.map .registry)
  | .getMasterKeyCheck => .select (store.lookup .masterKeyCheck).toList
  | .addKey record => .insertAbsent (.registry record)
  | .getSystemSecret secretName => .select (store.lookup (.record (.system secretName))).toList
  | .putSystemSecret secretName encryptedSecret encryptionKeyVersion updatedAt =>
      upsertRecord ⟨.system secretName, encryptedSecret, encryptionKeyVersion, .system updatedAt⟩
        (replacedSecret encryptedSecret encryptionKeyVersion updatedAt) fun _ => rfl
  | .usage => .select (store.versions.map fun version => .usage (store.usage version))
  | .createRotationJob job => .insert (.job job) false
  | .claimRotationJob workerId now leaseExpiresAt acquired skipped =>
      setJob (fun job => claimable now job &&
          decide (job.keyRotationJobId ∈ candidates store now acquired skipped))
        (claimed workerId now leaseExpiresAt) fun _ => rfl
  | .loadRecords kind targetKeyVersion limit skipped =>
      .lock (EncryptionRow.records.meets fun record => outdated kind targetKeyVersion record &&
        decide (record.recordId ∈ chosen store kind targetKeyVersion limit skipped))
  | .updateRecord recordId encryptedPayload keyVersion updatedAt =>
      setRecord recordId (fun _ => true) (rewritten encryptedPayload keyVersion updatedAt)
        fun _ => rfl
  | .updateRotationJob jobId state processedIncrement remainingCount now leaseExpiresAt errorCode =>
      setJob (fun job => decide (job.keyRotationJobId = jobId))
        (updatedJob state processedIncrement remainingCount now leaseExpiresAt errorCode)
        fun _ => rfl
  | .ordinary statement => statement.meaning

/-- The writes that the returned rows of a statement tell. -/
def EncryptionStatement.effects (statement : EncryptionStatement) (shown : List EncryptionRow) :
    List (Write EncryptionKey EncryptionRow) :=
  match statement with
  | .listKeys => []
  | .getMasterKeyCheck => []
  | .getSystemSecret _ => []
  | .usage => []
  | .ordinary (.deleteMfaFactor _) => shown.map fun row => .erase row.key
  | .ordinary (.deleteSecretInputs _) => shown.map fun row => .erase row.key
  | .ordinary (.deleteBusiness _ _) => shown.map fun row => .erase row.key
  | _ => shown.map .put

end OpsComposer.Encryption
