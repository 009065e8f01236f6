import OpsComposer.Repositories.Playbooks

/-!
# The service of playbooks

The operations of `PlaybookService` on playbooks of the database, each as the program of its
unit of work.  Contents and projects are validated before the unit of work begins, by a
syntax check that is not modelled: what came of it comes with the call, and so do the
identifier of a new playbook and what a restore has read in its two earlier units of work.
The audit events and the permission checks are left out.
-/

set_option autoImplicit false

namespace OpsComposer.Playbooks

open Domain (Uuid)
open Foundations Services
open Services.PlaybookProject (PlaybookRevisionFile)

/-- The exceptions that the operations raise. -/
inductive PlaybookError where
  /-- `PlaybookSourceDisabledError`. -/
  | sourceDisabled
  /-- `PlaybookInvalidError` and `PlaybookProjectInvalidError`. -/
  | invalid (message : String)
  /-- `PlaybookNotFoundError`. -/
  | notFound (message : String)
  /-- `PlaybookVersionConflictError`. -/
  | versionConflict
  /-- Any exception that is no `OpsError`. -/
  | fault
  deriving DecidableEq

/-! ## Revisions -/

/-- `PlaybookValidationResult`, of which the service reads these fields. -/
structure PlaybookValidationResult where
  normalizedContent : Option Text := none
  sha256 : Option Bytes := none
  sizeBytes : Option Nat := none
  validatorVersion : Option Text := none
  normalizedFiles : List PlaybookRevisionFile := []
  entrypoint : Option Text := none
  parameterSchema : Option Json := none
  supportsCheckMode : Bool := false

/-- `validate_parameter_schema(None)`. -/
def defaultSchema : Json :=
  .obj [(text "type", .str (text "object")), (text "properties", .obj []),
    (text "additionalProperties", .bool false)]

/-- `schema or validate_parameter_schema(None)`. -/
def schemaOrDefault : Option Json → Json
  | none => defaultSchema
  | some (.obj []) => defaultSchema
  | some schema => schema

/-- What the model of a revision asks of its fields. -/
def PlaybookRevision.valid (revision : PlaybookRevision) (files : List PlaybookRevisionFile) :
    Bool :=
  decide (1 ≤ revision.revision) &&
    decide (1 ≤ revision.sizeBytes ∧ revision.sizeBytes ≤ 10 * 1024 * 1024) &&
    match revision.revisionFormat with
    | .legacySingleYaml =>
        revision.content.isSome && revision.entrypoint.isNone && files.isEmpty
    | .project => revision.content.isNone && revision.entrypoint.isSome && !files.isEmpty

/-- `_revision`: the row of a revision, and its files. -/
def newRevision (playbookId : Uuid) (revision : Nat) (actorUserId : Uuid)
    (validation : PlaybookValidationResult) (now : Nat) (revisionFormat : PlaybookRevisionFormat) :
    Option (PlaybookRevision × List PlaybookRevisionFile) := do
  let sha256 ← validation.sha256
  let sizeBytes ← validation.sizeBytes
  let validatorVersion ← validation.validatorVersion
  let row : PlaybookRevision :=
    { playbookId := playbookId
      revision := revision
      content := validation.normalizedContent
      sha256 := sha256
      sizeBytes := sizeBytes
      validatorVersion := validatorVersion
      validatedAt := now
      createdBy := actorUserId
      createdAt := now
      revisionFormat := revisionFormat
      entrypoint := validation.entrypoint
      parameterSchema := schemaOrDefault validation.parameterSchema
      supportsCheckMode := validation.supportsCheckMode }
  if row.valid validation.normalizedFiles then some (row, validation.normalizedFiles) else none

/-! ## Programs -/

/-- What an operation returns: a document, with the files of its revision. -/
inductive PlaybookAnswer where
  | document (playbook : DatabasePlaybook) (revision : PlaybookRevision)
      (files : List PlaybookRevisionFile)
  | revision (revision : PlaybookRevision) (files : List PlaybookRevisionFile)
  | nothing

/-- A unit of work on the Playbooks. -/
abbrev PlaybookProgram := Program PlaybookStatement PlaybookRow PlaybookError

open Program (orFail raiseIf ofAnswer)

/-- The Playbook that a query has returned. -/
def firstPlaybook? : List PlaybookRow → Option DatabasePlaybook
  | .playbook row :: _ => some row
  | _ => none

/-- The revision that a query has returned. -/
def firstRevision? : List PlaybookRow → Option PlaybookRevision
  | .revision row :: _ => some row
  | _ => none

/-- The playbook and the revision of a document. -/
def firstDocument? : List PlaybookRow → Option (DatabasePlaybook × PlaybookRevision)
  | .playbook row :: .revision revision :: _ => some (row, revision)
  | _ => none

/-- The files that a query has returned. -/
def filesOf (rows : List PlaybookRow) : List PlaybookRevisionFile :=
  rows.filterMap fun row => (PlaybookRow.files.unwrap row).map StoredFile.file

/-- `get_document`. -/
def getDocument (playbookId : Uuid) (forUpdate : Bool) (error : PlaybookError) :
    PlaybookProgram (DatabasePlaybook × PlaybookRevision × List PlaybookRevisionFile) := do
  let rows ← Program.execute (.getDocument playbookId forUpdate)
  let found ← orFail error (firstDocument? rows)
  let files ← Program.execute (.getFiles playbookId found.2.revision)
  return (found.1, found.2, filesOf files)

/-- `execute_many` of the inserts of files. -/
def insertFiles (playbookId : Uuid) (revision : Nat) :
    List PlaybookRevisionFile → PlaybookProgram Unit
  | [] => .done ()
  | file :: files =>
      .run (.insertFile ⟨playbookId, revision, file⟩) fun _ => insertFiles playbookId revision files

/-- `_insert_revision`. -/
def insertRevision (revision : PlaybookRevision) (files : List PlaybookRevisionFile) :
    PlaybookProgram Unit := do
  let _ ← Program.execute (.insertRevision revision)
  insertFiles revision.playbookId revision.revision files

/-- What a request says about a playbook. -/
structure PlaybookData where
  name : Text
  description : Text
  enabled : Bool

section Operations

variable (databaseEnabled : Bool)

/-- `_require_source(PlaybookSource.DATABASE)`, and that the name is not empty. -/
def requireNamed (name : Text) : PlaybookProgram Unit := do
  raiseIf .sourceDisabled (!databaseEnabled)
  raiseIf (.invalid "playbook name must not be empty") name.strip.isEmpty

/-- The row of a new playbook. -/
def newPlaybook (data : PlaybookData) (playbookId actorUserId : Uuid) (now : Nat) :
    DatabasePlaybook where
  playbookId := playbookId
  name := data.name.strip
  description := data.description.strip
  enabled := data.enabled
  currentRevision := 1
  version := 1
  createdBy := actorUserId
  updatedBy := actorUserId
  createdAt := now
  updatedAt := now

/-- `create_database`, with the answer of the validator. -/
def createDatabase (actorUserId : Uuid) (data : PlaybookData)
    (revisionFormat : PlaybookRevisionFormat)
    (validated : Except PlaybookError PlaybookValidationResult) (playbookId : Uuid) :
    PlaybookProgram PlaybookAnswer := do
  requireNamed databaseEnabled data.name
  let validation ← ofAnswer validated
  let now ← Program.now
  let revision ← orFail .fault
    (newRevision playbookId 1 actorUserId validation now revisionFormat)
  let rows ← Program.execute (.add (newPlaybook data playbookId actorUserId now))
  insertRevision revision.1 revision.2
  let created ← orFail .fault (firstPlaybook? rows)
  return .document created revision.1 revision.2

/-- The candidate of an update. -/
def editedPlaybook (data : PlaybookData) (actorUserId : Uuid) (expectedVersion now : Nat)
    (current : DatabasePlaybook) : DatabasePlaybook :=
  { current with
    name := data.name.strip
    description := data.description.strip
    enabled := data.enabled
    currentRevision := current.currentRevision + 1
    version := expectedVersion + 1
    updatedBy := actorUserId
    updatedAt := now }

/-- `update_database`: a new revision at the expected version. -/
def updateDatabase (playbookId actorUserId : Uuid) (expectedVersion : Nat) (data : PlaybookData)
    (revisionFormat : PlaybookRevisionFormat)
    (validated : Except PlaybookError PlaybookValidationResult) :
    PlaybookProgram PlaybookAnswer := do
  requireNamed databaseEnabled data.name
  let validation ← ofAnswer validated
  let now ← Program.now
  let current ← getDocument playbookId true (.notFound "playbook not found")
  raiseIf .versionConflict (current.1.version ≠ expectedVersion)
  let revision ← orFail .fault
    (newRevision playbookId (current.1.currentRevision + 1) actorUserId validation now
      revisionFormat)
  insertRevision revision.1 revision.2
  let rows ← Program.execute
    (.update (editedPlaybook data actorUserId expectedVersion now current.1) expectedVersion)
  let updated ← orFail .versionConflict (firstPlaybook? rows)
  return .document updated revision.1 revision.2

/-- The last unit of work of `restore_revision`: an update with the project of an older
revision, under the name and the description that the playbook had when it was read. -/
def restoreRevision (playbookId actorUserId : Uuid) (expectedVersion : Nat)
    (current : DatabasePlaybook) (validated : Except PlaybookError PlaybookValidationResult) :
    PlaybookProgram PlaybookAnswer :=
  updateDatabase databaseEnabled playbookId actorUserId expectedVersion
    ⟨current.name, current.description, current.enabled⟩ .project validated

/-- `delete_database`. -/
def deleteDatabase (playbookId actorUserId : Uuid) (expectedVersion : Nat) :
    PlaybookProgram PlaybookAnswer := do
  raiseIf .sourceDisabled (!databaseEnabled)
  let now ← Program.now
  let current ← getDocument playbookId true (.notFound "playbook not found")
  raiseIf .versionConflict (current.1.version ≠ expectedVersion)
  let rows ← Program.execute (.softDelete playbookId expectedVersion now actorUserId)
  let _ ← orFail .versionConflict (firstPlaybook? rows)
  return .nothing

/-- `get_database`. -/
def getDatabase (playbookId : Uuid) : PlaybookProgram PlaybookAnswer := do
  raiseIf .sourceDisabled (!databaseEnabled)
  let found ← getDocument playbookId false (.notFound "playbook not found")
  return .document found.1 found.2.1 found.2.2

/-- `get_revision`. -/
def getRevision (playbookId : Uuid) (revision : Nat) : PlaybookProgram PlaybookAnswer := do
  raiseIf .sourceDisabled (!databaseEnabled)
  let rows ← Program.execute (.getRevision playbookId revision)
  let found ← orFail (.notFound "Playbook revision was not found") (firstRevision? rows)
  let files ← Program.execute (.getFiles playbookId revision)
  return .revision found (filesOf files)

end Operations

/-! ## Calls -/

/-- A call of the service, with what comes with it from the validator. -/
inductive PlaybookCall where
  | create (actorUserId : Uuid) (data : PlaybookData) (revisionFormat : PlaybookRevisionFormat)
      (validated : Except PlaybookError PlaybookValidationResult) (playbookId : Uuid)
  | update (playbookId actorUserId : Uuid) (expectedVersion : Nat) (data : PlaybookData)
      (revisionFormat : PlaybookRevisionFormat)
      (validated : Except PlaybookError PlaybookValidationResult)
  | restore (playbookId actorUserId : Uuid) (expectedVersion : Nat) (current : DatabasePlaybook)
      (validated : Except PlaybookError PlaybookValidationResult)
  | delete (playbookId actorUserId : Uuid) (expectedVersion : Nat)
  | getDatabase (playbookId : Uuid)
  | getRevision (playbookId : Uuid) (revision : Nat)

/-- The program of a call. -/
def PlaybookCall.program (databaseEnabled : Bool) : PlaybookCall → PlaybookProgram PlaybookAnswer
  | .create actorUserId data revisionFormat validated playbookId =>
      createDatabase databaseEnabled actorUserId data revisionFormat validated playbookId
  | .update playbookId actorUserId expectedVersion data revisionFormat validated =>
      updateDatabase databaseEnabled playbookId actorUserId expectedVersion data revisionFormat
        validated
  | .restore playbookId actorUserId expectedVersion current validated =>
      restoreRevision databaseEnabled playbookId actorUserId expectedVersion current validated
  | .delete playbookId actorUserId expectedVersion =>
      deleteDatabase databaseEnabled playbookId actorUserId expectedVersion
  | .getDatabase playbookId => Playbooks.getDatabase databaseEnabled playbookId
  | .getRevision playbookId revision => Playbooks.getRevision databaseEnabled playbookId revision

/-- The settings that the service reads, and the collation of the database. -/
structure PlaybookSettings where
  databaseEnabled : Bool
  lower : Text → Text

/-- The Playbooks as a service on a database. -/
def playbookService (settings : PlaybookSettings) :
    Service PlaybookStore PlaybookKey PlaybookRow PlaybookStatement PlaybookError PlaybookAnswer
      PlaybookCall where
  program := PlaybookCall.program settings.databaseEnabled
  meaning := PlaybookStatement.meaning
  clash := PlaybookRow.clash settings.lower
  constraint _ := true

/-- The database of the Playbooks, with its transactions. -/
abbrev PlaybookDb :=
  Db PlaybookStore PlaybookKey PlaybookRow PlaybookStatement PlaybookError PlaybookAnswer
    PlaybookCall

/-- A transaction on it. -/
abbrev PlaybookTxn :=
  Txn PlaybookStore PlaybookKey PlaybookRow PlaybookStatement PlaybookError PlaybookAnswer
    PlaybookCall

/-- An event in the log of such a transaction. -/
abbrev PlaybookEvent := Event PlaybookStatement PlaybookRow

/-- The database as the callers step it. -/
abbrev PlaybookWorld :=
  DbWorld PlaybookStore PlaybookKey PlaybookRow PlaybookStatement PlaybookError PlaybookAnswer
    PlaybookCall

/-- Playbooks as a transition system, from an empty database on. -/
def playbookSystem (settings : PlaybookSettings) : System PlaybookWorld (DbAct PlaybookCall) :=
  (playbookService settings).system fun store => store = Table.empty

end OpsComposer.Playbooks
