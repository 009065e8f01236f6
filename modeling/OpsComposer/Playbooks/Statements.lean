import OpsComposer.Foundations.RowQueries
import OpsComposer.Services.Playbooks

/-!
# What the statements and the operations on playbooks do

The writes of a statement, told by the rows that it returns (`tellable`), and the logs with
which the operations end: one shape for the creation of a playbook, one for an update or a
restore, one for a deletion (`Outcome`).  An operation that fails has no such log.
-/

set_option autoImplicit false

namespace OpsComposer.Playbooks

open Domain (Uuid)
open Foundations Services RowStore
open Services.PlaybookProject (PlaybookRevisionFile)
open Program (bind_assoc execute_bind Ends ends_done ends_fail ends_run ends_clock ends_orFail
  ends_raiseIf ends_ofAnswer)

/-! ## Statements -/

section Perform

variable {settings : PlaybookSettings} {snapshot current : PlaybookStore}
  {clash : PlaybookRow → PlaybookRow → Bool} {shown : List PlaybookRow}
  {writes : List (Write PlaybookKey PlaybookRow)}

/-- An insert returns its row, and writes it. -/
theorem perform_insert {row : PlaybookRow}
    (done : (Command.insert row false : Command PlaybookStore PlaybookKey PlaybookRow).perform
      clash snapshot current = some (shown, writes)) :
    RowStore.lookup current row.key = none ∧ shown = [row] ∧ writes = [.put row] := by
  obtain ⟨free, ⟨-, nothing, -⟩ | ⟨-, isShown, isWritten⟩⟩ := Command.perform_insert done
  · cases nothing
  · exact ⟨free, isShown, isWritten⟩

variable {playbookId : Uuid}

theorem only_isActive {row : DatabasePlaybook} (active : isActive playbookId row = true) :
    PlaybookRow.key (PlaybookRow.playbooks.wrap row) = .playbook playbookId :=
  congrArg PlaybookKey.playbook (of_decide_eq_true active).1

theorem only_and {condition : DatabasePlaybook → Bool}
    (row : DatabasePlaybook) (holds : (isActive playbookId row && condition row) = true) :
    PlaybookRow.key (PlaybookRow.playbooks.wrap row) = .playbook playbookId :=
  only_isActive (Bool.and_eq_true_iff.mp holds).1

/-- Of the columns of a document the playbook is the only row of its table. -/
theorem playbooks_of_document (store : PlaybookStore) (row : DatabasePlaybook) :
    (document store (.playbook row)).filter
        (fun row => (PlaybookRow.playbooks.unwrap row).isSome) = [.playbook row] := by
  rw [document, List.filter_cons_of_pos rfl]
  cases currentRevision? store row with
  | none | some revision => rfl

/-- The writes of a query for a document with a lock. -/
theorem perform_getDocument
    (done : (PlaybookStatement.meaning (.getDocument playbookId true) snapshot).perform clash
      snapshot current = some (shown, writes)) :
    (∃ row : DatabasePlaybook, current.playbook? playbookId = some row ∧
        isActive playbookId row = true ∧ shown = document snapshot (.playbook row) ∧
        writes = [.put (.playbook row)]) ∨
      (shown = [] ∧ writes = []) := by
  rcases RowKind.perform_one (f := id) (fun _ => rfl) only_and done
    with ⟨old, new, -, -, isNew, holds, isShown, isWritten⟩ | ⟨nothing, none, -⟩
  · exact .inl ⟨new, isNew, (Bool.and_eq_true_iff.mp holds).1, isShown, isWritten⟩
  · exact .inr ⟨nothing, none⟩

/-- What an update of one playbook returns, it has written. -/
theorem perform_setPlaybook {condition : DatabasePlaybook → Bool}
    {f : DatabasePlaybook → DatabasePlaybook} (keeps : ∀ row, (f row).playbookId = row.playbookId)
    (done : (setPlaybook (fun row => isActive playbookId row && condition row) f keeps).perform
      clash snapshot current = some (shown, writes)) :
    (∃ row : DatabasePlaybook, current.playbook? playbookId = some row ∧
        isActive playbookId row = true ∧ condition row = true ∧
        shown = [.playbook (f row)] ∧ writes = [.put (.playbook (f row))]) ∨
      (shown = [] ∧ writes = []) := by
  rcases RowKind.perform_one (PlaybookRow.playbooks.map_wrap f) only_and done
    with ⟨old, new, -, -, isNew, holds, isShown, isWritten⟩ | ⟨nothing, none, -⟩
  · obtain ⟨active, meets⟩ := Bool.and_eq_true_iff.mp holds
    exact .inl ⟨new, isNew, active, meets, isShown, isWritten⟩
  · exact .inr ⟨nothing, none⟩

/-- **The returned rows of a statement tell its writes.** -/
theorem tellable : (playbookService settings).Tellable PlaybookStatement.effects := by
  intro statement snapshot current shown writes done
  cases statement with
  | getDocument playbookId forUpdate =>
      cases forUpdate with
      | false => exact (Prod.mk.inj (Option.some.inj done)).2.symm
      | true =>
          rcases perform_getDocument done with ⟨row, -, -, rfl, rfl⟩ | ⟨rfl, rfl⟩
          · rw [PlaybookStatement.effects, playbooks_of_document]
            rfl
          · rfl
  | getFiles playbookId revision | getRevision playbookId revision =>
      exact (Prod.mk.inj (Option.some.inj done)).2.symm
  | add playbook | insertRevision revision | insertFile file =>
      obtain ⟨-, rfl, rfl⟩ := perform_insert done
      rfl
  | update playbook expected | softDelete playbookId expected deletedAt updatedBy =>
      exact (Command.perform_set done).2

end Perform

/-! ## Logs -/

/-- The events of the inserts of files. -/
inductive FilesAdded (playbookId : Uuid) (revision : Nat) :
    List PlaybookRevisionFile → List PlaybookEvent → Prop where
  | nil : FilesAdded playbookId revision [] []
  | cons {file : PlaybookRevisionFile} {files : List PlaybookRevisionFile}
      {rows : List PlaybookRow} {seen : Nat} {events : List PlaybookEvent}
      (rest : FilesAdded playbookId revision files events) :
      FilesAdded playbookId revision (file :: files)
        (.ran (.insertFile ⟨playbookId, revision, file⟩) rows seen :: events)

/-- The log of `create_database`. -/
inductive Created (playbookId : Uuid) : List PlaybookEvent → Prop where
  | log {data : PlaybookData} {actorUserId : Uuid} {validation : PlaybookValidationResult}
      {revisionFormat : PlaybookRevisionFormat} {now : Nat} {revision : PlaybookRevision}
      {files : List PlaybookRevisionFile} {rows rows' : List PlaybookRow} {seen seen' : Nat}
      {events : List PlaybookEvent}
      (isNew : newRevision playbookId 1 actorUserId validation now revisionFormat =
        some (revision, files))
      (added : FilesAdded revision.playbookId revision.revision files events) :
      Created playbookId
        ([.clock now, .ran (.add (newPlaybook data playbookId actorUserId now)) rows seen,
          .ran (.insertRevision revision) rows' seen'] ++ events)

/-- The log of `update_database`. -/
inductive Updated (playbookId : Uuid) (expectedVersion : Nat) : List PlaybookEvent → Prop where
  | log {data : PlaybookData} {actorUserId : Uuid} {validation : PlaybookValidationResult}
      {revisionFormat : PlaybookRevisionFormat} {now : Nat} {current updated : DatabasePlaybook}
      {old revision : PlaybookRevision} {files : List PlaybookRevisionFile}
      {found kept rows rows' : List PlaybookRow} {s s' s'' s''' : Nat}
      {events : List PlaybookEvent} (isFound : firstDocument? found = some (current, old))
      (same : current.version = expectedVersion)
      (isNew : newRevision playbookId (current.currentRevision + 1) actorUserId validation now
        revisionFormat = some (revision, files))
      (added : FilesAdded revision.playbookId revision.revision files events)
      (isUpdated : firstPlaybook? rows' = some updated) :
      Updated playbookId expectedVersion
        ([.clock now, .ran (.getDocument playbookId true) found s,
          .ran (.getFiles playbookId old.revision) kept s',
          .ran (.insertRevision revision) rows s''] ++ events ++
          [.ran (.update (editedPlaybook data actorUserId expectedVersion now current)
            expectedVersion) rows' s'''])

/-- The log of `delete_database`. -/
inductive Deleted (playbookId : Uuid) (expectedVersion : Nat) : List PlaybookEvent → Prop where
  | log {actorUserId : Uuid} {now : Nat} {current deleted : DatabasePlaybook}
      {old : PlaybookRevision} {found kept rows : List PlaybookRow} {s s' s'' : Nat}
      (isFound : firstDocument? found = some (current, old))
      (same : current.version = expectedVersion) (isDeleted : firstPlaybook? rows = some deleted) :
      Deleted playbookId expectedVersion
        [.clock now, .ran (.getDocument playbookId true) found s,
          .ran (.getFiles playbookId old.revision) kept s',
          .ran (.softDelete playbookId expectedVersion now actorUserId) rows s'']

/-- The playbook that a call changes, and the version that it presents. -/
def PlaybookCall.presented? : PlaybookCall → Option (Uuid × Nat)
  | .update playbookId _ expectedVersion _ _ _ => some (playbookId, expectedVersion)
  | .restore playbookId _ expectedVersion _ _ => some (playbookId, expectedVersion)
  | .delete playbookId _ expectedVersion => some (playbookId, expectedVersion)
  | .create _ _ _ _ _ => none
  | .getDatabase _ => none
  | .getRevision _ _ => none

/-- The log of a call that has come to its end. -/
inductive Outcome : PlaybookCall → List PlaybookEvent → Prop where
  | created {call : PlaybookCall} {playbookId : Uuid} {log : List PlaybookEvent}
      (none : call.presented? = none) (isCreated : Created playbookId log) : Outcome call log
  | updated {call : PlaybookCall} {playbookId : Uuid} {expectedVersion : Nat}
      {log : List PlaybookEvent} (presented : call.presented? = some (playbookId, expectedVersion))
      (isUpdated : Updated playbookId expectedVersion log) : Outcome call log
  | deleted {call : PlaybookCall} {playbookId : Uuid} {expectedVersion : Nat}
      {log : List PlaybookEvent} (presented : call.presented? = some (playbookId, expectedVersion))
      (isDeleted : Deleted playbookId expectedVersion log) : Outcome call log
  | read {call : PlaybookCall} {log : List PlaybookEvent} (none : call.presented? = none)
      (silent : logged PlaybookStatement.effects log = []) : Outcome call log

section Ends

variable {told : PlaybookStatement → List PlaybookRow → Prop} {α : Type}
  {Q : α → List PlaybookEvent → Prop}

variable {log : List PlaybookEvent}

theorem ends_insertFiles {playbookId : Uuid} {revision : Nat} {files : List PlaybookRevisionFile}
    {next : Unit → PlaybookProgram α}
    (each : ∀ events, FilesAdded playbookId revision files events →
      Ends told Q (log ++ events) (next ())) :
    Ends told Q log (insertFiles playbookId revision files >>= next) := by
  induction files generalizing log with
  | nil =>
      have rest := each [] .nil
      rw [List.append_nil] at rest
      exact rest
  | cons file files ih =>
      refine ends_run fun rows seen _ => ih fun events added => ?_
      rw [List.append_assoc]
      exact each _ (.cons added)

theorem ends_requireNamed {databaseEnabled : Bool} {name : Text}
    {next : Unit → PlaybookProgram α} (rest : Ends told Q log (next ())) :
    Ends told Q log (requireNamed databaseEnabled name >>= next) := by
  cases databaseEnabled with
  | false => exact ends_fail _
  | true => exact ends_raiseIf fun _ => rest

theorem ends_getDocument {playbookId : Uuid} {forUpdate : Bool} {error : PlaybookError}
    {next : DatabasePlaybook × PlaybookRevision × List PlaybookRevisionFile → PlaybookProgram α}
    (each : ∀ found s document kept s', firstDocument? found = some document →
      Ends told Q (log ++ [.ran (.getDocument playbookId forUpdate) found s] ++
          [.ran (.getFiles playbookId document.2.revision) kept s'])
        (next (document.1, document.2, filesOf kept))) :
    Ends told Q log (getDocument playbookId forUpdate error >>= next) := by
  rw [getDocument, bind_assoc, execute_bind]
  refine ends_run fun found s _ => ?_
  rw [bind_assoc]
  refine ends_orFail fun document isFound => ?_
  exact ends_run fun kept s' _ => each found s document kept s' isFound

/-- An update and a restore. -/
theorem ends_updateDatabase (databaseEnabled : Bool) (playbookId actorUserId : Uuid)
    (expectedVersion : Nat) (data : PlaybookData) (revisionFormat : PlaybookRevisionFormat)
    (validated : Except PlaybookError PlaybookValidationResult) :
    Ends told (fun _ => Updated playbookId expectedVersion) []
      (updateDatabase databaseEnabled playbookId actorUserId expectedVersion data revisionFormat
        validated) := by
  refine ends_requireNamed (ends_ofAnswer fun validation _ => ends_clock fun now => ?_)
  refine ends_getDocument fun found s document kept s' isFound => ends_raiseIf fun same => ?_
  refine ends_orFail fun revision isNew => ends_run fun rows s'' _ => ?_
  refine ends_insertFiles fun events added => ?_
  refine ends_run fun rows' s''' _ => ends_orFail fun updated isUpdated => ends_done ?_
  exact .log isFound (by simpa using same) isNew added isUpdated

/-- **Every call** that comes to its end has one of these logs. -/
theorem ends_program (databaseEnabled : Bool) (call : PlaybookCall) :
    Ends told (fun _ => Outcome call) [] (call.program databaseEnabled) := by
  cases call with
  | create actorUserId data revisionFormat validated playbookId =>
      refine ends_requireNamed (ends_ofAnswer fun validation _ => ?_)
      refine ends_clock fun now => ends_orFail fun revision isNew => ends_run fun rows seen _ => ?_
      refine ends_run fun rows' seen' _ => ends_insertFiles fun events added => ?_
      exact ends_orFail fun created _ => ends_done (.created rfl (.log isNew added))
  | update playbookId actorUserId expectedVersion data revisionFormat validated =>
      exact (ends_updateDatabase _ _ _ _ data _ validated).mono fun _ _ ends answer done =>
        .updated rfl (ends answer done)
  | restore playbookId actorUserId expectedVersion current validated =>
      exact (ends_updateDatabase _ _ _ _ _ _ validated).mono fun _ _ ends answer done =>
        .updated rfl (ends answer done)
  | delete playbookId actorUserId expectedVersion =>
      refine ends_raiseIf fun _ => ends_clock fun now => ?_
      refine ends_getDocument fun found s document kept s' isFound => ?_
      refine ends_raiseIf fun same => ends_run fun rows s'' _ => ?_
      refine ends_orFail fun deleted isDeleted => ends_done ?_
      exact .deleted rfl (.log isFound (by simpa using same) isDeleted)
  | getDatabase playbookId =>
      refine ends_raiseIf fun _ => ends_getDocument fun found s document kept s' _ => ?_
      exact ends_done (.read rfl rfl)
  | getRevision playbookId revision =>
      refine ends_raiseIf fun _ => ends_run fun found s _ => ends_orFail fun document _ => ?_
      exact ends_run fun kept s' _ => ends_done (.read rfl rfl)

end Ends

end OpsComposer.Playbooks
