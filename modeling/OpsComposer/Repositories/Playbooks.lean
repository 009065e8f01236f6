import OpsComposer.Domain.Ops
import OpsComposer.Foundations.Chronicle
import OpsComposer.Services.PlaybookProject

/-!
# Playbooks and their revisions

The rows of `playbooks`, `playbook_revisions` and `playbook_revision_files`, and the
statements of `PostgresPlaybookRepository` on them.

A document is a playbook with the revision that it points to.  A query that locks it locks
the playbook only: when it has waited for another version of the playbook, it is still the
revision of its snapshot that the playbook has to point to.
-/

set_option autoImplicit false

namespace OpsComposer.Playbooks

open Domain (Uuid)
open Foundations Services
open Services.PlaybookProject (PlaybookRevisionFile)

/-! ## Rows -/

/-- A row of `playbooks`. -/
structure DatabasePlaybook where
  playbookId : Uuid
  name : Text
  description : Text
  enabled : Bool
  currentRevision : Nat
  version : Nat
  createdBy : Uuid
  updatedBy : Uuid
  deletedAt : Option Nat := none
  createdAt : Nat
  updatedAt : Nat

/-- The two formats of a revision. -/
inductive PlaybookRevisionFormat where
  | legacySingleYaml
  | project
  deriving DecidableEq

/-- The columns of `playbook_revisions`. -/
structure PlaybookRevision where
  playbookId : Uuid
  revision : Nat
  content : Option Text
  sha256 : Bytes
  sizeBytes : Nat
  validatorVersion : Text
  validatedAt : Nat
  createdBy : Uuid
  createdAt : Nat
  revisionFormat : PlaybookRevisionFormat
  entrypoint : Option Text
  parameterSchema : Json
  supportsCheckMode : Bool

/-- A row of `playbook_revision_files`. -/
structure StoredFile where
  playbookId : Uuid
  revision : Nat
  file : PlaybookRevisionFile

/-- What a row is found by. -/
inductive PlaybookKey where
  | playbook (playbookId : Uuid)
  | revision (playbookId : Uuid) (revision : Nat)
  | file (playbookId : Uuid) (revision : Nat) (path : Text)
  deriving DecidableEq

/-- A row of one of the tables. -/
inductive PlaybookRow where
  | playbook (row : DatabasePlaybook)
  | revision (row : PlaybookRevision)
  | file (row : StoredFile)

namespace PlaybookRow

/-- The key of a row. -/
def key : PlaybookRow → PlaybookKey
  | .playbook row => .playbook row.playbookId
  | .revision row => .revision row.playbookId row.revision
  | .file row => .file row.playbookId row.revision row.file.path

/-- The rows of `playbooks`. -/
def playbooks : RowKind PlaybookRow DatabasePlaybook where
  wrap := .playbook
  unwrap
    | .playbook row => some row
    | _ => none

/-- The rows of `playbook_revisions`. -/
def revisions : RowKind PlaybookRow PlaybookRevision where
  wrap := .revision
  unwrap
    | .revision row => some row
    | _ => none

/-- The rows of `playbook_revision_files`. -/
def files : RowKind PlaybookRow StoredFile where
  wrap := .file
  unwrap
    | .file row => some row
    | _ => none

/-- `uq_playbooks_active_name`, for a `lower` of the collation. -/
def clash (lower : Text → Text) : PlaybookRow → PlaybookRow → Bool
  | .playbook row, .playbook other =>
      decide (row.deletedAt = none ∧ other.deletedAt = none ∧ lower row.name = lower other.name)
  | _, _ => false

end PlaybookRow

/-- The tables of the Playbooks. -/
abbrev PlaybookStore := Table PlaybookRow.key

namespace PlaybookStore

/-- The Playbook with the identifier. -/
def playbook? (store : PlaybookStore) (playbookId : Uuid) : Option DatabasePlaybook :=
  (store.lookup (.playbook playbookId)).bind PlaybookRow.playbooks.unwrap

/-- The revision of a Playbook with this number. -/
def revision? (store : PlaybookStore) (playbookId : Uuid) (revision : Nat) :
    Option PlaybookRevision :=
  (store.lookup (.revision playbookId revision)).bind PlaybookRow.revisions.unwrap

end PlaybookStore

/-! ## Statements -/

/-- The statements of the repository. -/
inductive PlaybookStatement where
  | getDocument (playbookId : Uuid) (forUpdate : Bool)
  | getFiles (playbookId : Uuid) (revision : Nat)
  | getRevision (playbookId : Uuid) (revision : Nat)
  /-- The first statement of `add`. -/
  | add (playbook : DatabasePlaybook)
  /-- The statements of `_insert_revision`. -/
  | insertRevision (revision : PlaybookRevision)
  | insertFile (file : StoredFile)
  /-- The last statement of `update`. -/
  | update (playbook : DatabasePlaybook) (expectedVersion : Nat)
  | softDelete (playbookId : Uuid) (expectedVersion deletedAt : Nat) (updatedBy : Uuid)

/-- The playbook that `get_document` looks for. -/
def isActive (playbookId : Uuid) (row : DatabasePlaybook) : Bool :=
  decide (row.playbookId = playbookId ∧ row.deletedAt = none)

/-- The revision that the playbook points to. -/
def currentRevision? (store : PlaybookStore) (row : DatabasePlaybook) : Option PlaybookRevision :=
  store.revision? row.playbookId row.currentRevision

/-- The playbook points to the revision with which the snapshot has joined it. -/
def joined (snapshot : PlaybookStore) (row : DatabasePlaybook) : Bool :=
  (snapshot.playbook? row.playbookId).any fun old =>
    decide (row.currentRevision = old.currentRevision) && (currentRevision? snapshot old).isSome

/-- The columns of a document: the playbook, and the revision that it points to. -/
def document (store : PlaybookStore) : PlaybookRow → List PlaybookRow
  | .playbook row => .playbook row :: ((currentRevision? store row).map .revision).toList
  | _ => []

/-- What an update of a playbook leaves. -/
def withRevision (playbook row : DatabasePlaybook) : DatabasePlaybook :=
  { row with
    name := playbook.name
    description := playbook.description
    enabled := playbook.enabled
    currentRevision := playbook.currentRevision
    version := playbook.version
    updatedBy := playbook.updatedBy
    updatedAt := playbook.updatedAt }

/-- A Playbook as its deletion writes it. -/
def softDeleted (deletedAt : Nat) (updatedBy : Uuid) (row : DatabasePlaybook) : DatabasePlaybook :=
  { row with
    deletedAt := some deletedAt
    enabled := false
    version := row.version + 1
    updatedBy := updatedBy
    updatedAt := deletedAt }

/-- An update of playbooks. -/
def setPlaybook (condition : DatabasePlaybook → Bool) (f : DatabasePlaybook → DatabasePlaybook)
    (keeps : ∀ row, (f row).playbookId = row.playbookId) :
    Command PlaybookStore PlaybookKey PlaybookRow :=
  .set (PlaybookRow.playbooks.meets condition) (PlaybookRow.playbooks.map f)
    (PlaybookRow.playbooks.map_keeps fun row => congrArg PlaybookKey.playbook (keeps row))

/-- What a statement does to the tables, as they are when it starts. -/
def PlaybookStatement.meaning (statement : PlaybookStatement) (store : PlaybookStore) :
    Command PlaybookStore PlaybookKey PlaybookRow :=
  match statement with
  | .getDocument playbookId false =>
      .select ((store.rows.filter (PlaybookRow.playbooks.meets fun row =>
        isActive playbookId row && joined store row)).flatMap (document store))
  | .getDocument playbookId true =>
      .update (PlaybookRow.playbooks.meets fun row => isActive playbookId row && joined store row)
        id (fun _ => rfl) false (document store)
  | .getFiles playbookId revision =>
      .select (sortedBy (fun row => (PlaybookRow.files.unwrap row).elim [] (·.file.path))
        (store.rows.filter (PlaybookRow.files.meets fun row =>
          decide (row.playbookId = playbookId ∧ row.revision = revision))))
  | .getRevision playbookId revision =>
      .select (store.rows.filter (PlaybookRow.revisions.meets fun row =>
        decide (row.playbookId = playbookId ∧ row.revision = revision)))
  | .add playbook => .insert (.playbook playbook) false
  | .insertRevision revision => .insert (.revision revision) false
  | .insertFile file => .insert (.file file) false
  | .update playbook expectedVersion =>
      setPlaybook (fun row => isActive playbook.playbookId row &&
        decide (row.version = expectedVersion)) (withRevision playbook) fun _ => rfl
  | .softDelete playbookId expectedVersion deletedAt updatedBy =>
      setPlaybook (fun row => isActive playbookId row && decide (row.version = expectedVersion))
        (softDeleted deletedAt updatedBy) fun _ => rfl

/-- The writes that the returned rows of a statement tell. -/
def PlaybookStatement.effects (statement : PlaybookStatement) (shown : List PlaybookRow) :
    List (Write PlaybookKey PlaybookRow) :=
  match statement with
  | .getDocument _ true =>
      (shown.filter fun row => (PlaybookRow.playbooks.unwrap row).isSome).map .put
  | .getDocument _ false => []
  | .getFiles _ _ => []
  | .getRevision _ _ => []
  | _ => shown.map .put

end OpsComposer.Playbooks
