import OpsComposer.Coordination.Logs
import OpsComposer.Coordination.Sessions
import OpsComposer.Foundations.UniqueIndexes

/-!
# Requests for runs

A request names its run by a key of the user.  Whichever units of work come between, the first
one with a key to come to its end stores the run with all that belongs to it, in one commit, and
every other answer about the key names that run, with the same fingerprint, and has stored
nothing (`request_creates_once`).
-/

set_option autoImplicit false

namespace OpsComposer.Coordination

open Domain Foundations Repositories Services
open RowStore

/-! ## The rows of runs -/

/-- The run is the one that was asked for. -/
structure SameRequest (old new : Run) : Prop where
  runId : new.runId = old.runId
  requestedBy : new.requestedBy = old.requestedBy
  idempotencyKey : new.idempotencyKey = old.idempotencyKey
  requestFingerprint : new.requestFingerprint = old.requestFingerprint

namespace SameRequest

theorem refl (run : Run) : SameRequest run run := ⟨rfl, rfl, rfl, rfl⟩

theorem trans {first second third : Run} (before : SameRequest first second)
    (after : SameRequest second third) : SameRequest first third :=
  ⟨after.runId.trans before.runId, after.requestedBy.trans before.requestedBy,
    after.idempotencyKey.trans before.idempotencyKey,
    after.requestFingerprint.trans before.requestFingerprint⟩

end SameRequest

/-- **The row of a run** is inserted, or it is the run that was asked for. -/
theorem run_of_changes {statement : OpsStatement} {snapshot : OpsStore} {before : Option OpsRow}
    {run : Run} (change : Command.Changes (statement.meaning snapshot) before (some (.run run))) :
    (before = none ∧ statement = .insertRun run) ∨
      ∃ old, before = some (.run old) ∧ SameRequest old run := by
  have touches := touches_of_changes change
  generalize isAfter : some (OpsRow.run run) = after at touches
  cases touches with
  | runInserted =>
      obtain rfl := OpsRow.run.inj (Option.some.inj isAfter)
      exact .inl ⟨rfl, rfl⟩
  | canceled isRun cancelable | claimed queued isChosen isRun | marked isRun preparing
  | finished isRun isOwn | numbered isRun =>
      obtain rfl := OpsRow.run.inj (Option.some.inj isAfter)
      exact .inr ⟨_, rfl, rfl, rfl, rfl, rfl⟩
  | @recovered _ current old after isChange =>
      subst isAfter
      cases old <;> simp only [OpsStatement.recovered, Option.ite_none_right_eq_some,
        Option.some.injEq, reduceCtorEq, OpsRow.run.injEq, and_false] at isChange
      obtain ⟨-, rfl⟩ := isChange
      exact .inr ⟨_, rfl, rfl, rfl, rfl, rfl⟩
  | @cleaned _ current old after isChange | @shellDeleted _ _ current old after isChange =>
      subst isAfter
      cases old <;> simp [OpsStatement.dropped] at isChange
  | @beaten _ _ _ _ _ current old after isChange =>
      subst isAfter
      cases old <;> simp [OpsStatement.refreshed] at isChange
  | _ => cases isAfter

/-- No statement deletes a run or a target. -/
theorem stays_of_changes {statement : OpsStatement} {snapshot : OpsStore} {row : OpsRow}
    {after : Option OpsRow} (isRun : (∃ run, row = .run run) ∨ ∃ target, row = .target target)
    (change : Command.Changes (statement.meaning snapshot) (some row) after) :
    ∃ row, after = some row := by
  have touches := touches_of_changes change
  generalize isBefore : some row = before at touches
  cases touches with
  | @recovered _ current old after isChange =>
      obtain rfl := Option.some.inj isBefore
      rcases isRun with ⟨run, rfl⟩ | ⟨target, rfl⟩
      all_goals
        simp only [OpsStatement.recovered, Option.ite_none_right_eq_some, Option.some.injEq]
          at isChange
        exact ⟨_, isChange.2.symm⟩
  | cleaned isChange | shellDeleted isChange =>
      obtain rfl := Option.some.inj isBefore
      rcases isRun with ⟨run, rfl⟩ | ⟨target, rfl⟩ <;> simp [OpsStatement.dropped] at isChange
  | beaten isChange =>
      obtain rfl := Option.some.inj isBefore
      rcases isRun with ⟨run, rfl⟩ | ⟨target, rfl⟩ <;> simp [OpsStatement.refreshed] at isChange
  | released | secretConsumed | loggedOut =>
      obtain rfl := Option.some.inj isBefore
      rcases isRun with ⟨run, wrong⟩ | ⟨target, wrong⟩ <;> cases wrong
  | _ => exact ⟨_, rfl⟩

theorem run_of_key {row : OpsRow} {id : Uuid} (key : row.key = .run id) :
    ∃ run, row = .run run ∧ run.runId = id := by
  cases row <;> cases key
  exact ⟨_, rfl, rfl⟩

section Runs

variable {settings : OpsSettings} {db : OpsDb}

/-- **A stored run** stays what was asked for. -/
theorem run_later (account : OpsAccount settings db) {n m : Nat} (le : n ≤ m)
    (bound : m ≤ db.history.length) {runId : Uuid} {run : Run}
    (found : lookup (committedAt db n) (OpsKey.run runId) = some (.run run)) :
    ∃ later, lookup (committedAt db m) (OpsKey.run runId) = some (.run later) ∧
      SameRequest run later := by
  refine account.induct (P := fun state => ∃ later,
    lookup state (OpsKey.run runId) = some (.run later) ∧ SameRequest run later) le bound
    ⟨run, found, .refl run⟩ ?_
  rintro i index txn answer - - committed before
  rw [← committed.after]
  refine committed.keeps (P := fun row? => ∃ later, row? = some (.run later) ∧
    SameRequest run later) ?_ before
  rintro statement shown seen - snapshot old? new? - isNew change ⟨middle, rfl, sofar⟩
  obtain ⟨row, rfl⟩ := stays_of_changes (.inl ⟨_, rfl⟩) change
  obtain ⟨new, rfl, -⟩ := run_of_key (isNew row rfl)
  rcases run_of_changes change with ⟨absent, -⟩ | ⟨old, same, turned⟩
  · cases absent
  · obtain rfl := OpsRow.run.inj (Option.some.inj same)
    exact ⟨new, rfl, sofar.trans turned⟩

end Runs

/-! ## What is stored with a run -/

/-- The run that a row belongs to. -/
def belongs : OpsRow → Option Uuid
  | .target target => some target.runId
  | .secretInput input => some input.runId
  | _ => none

/-- The statements that add rows to runs. -/
def adding : OpsStatement → Bool
  | .insertRun _ => true
  | .insertTarget _ => true
  | .insertEvent _ => true
  | .addSecretInputs _ => true
  | _ => false

variable {log : List OpsEvent} {row : OpsRow} {statement : OpsStatement} {snapshot : OpsStore}

/-- They change no row. -/
theorem not_adding_of_changes {after : Option OpsRow}
    (change : Command.Changes (statement.meaning snapshot) (some row) after) :
    adding statement = false := by
  have touches := touches_of_changes change
  generalize isBefore : some row = before at touches
  cases touches with
  | _ => first
    | rfl
    | cases isBefore

/-- Numbering an event changes the row of its run. -/
theorem run_of_numbered {runId : Uuid} {after : Option OpsRow}
    (change : Command.Changes ((OpsStatement.nextSequence runId).meaning snapshot) (some row)
      after) : ∃ run, row = .run run := by
  have touches := touches_of_changes change
  generalize isBefore : some row = before at touches
  cases touches with
  | numbered isRun => exact ⟨_, Option.some.inj isBefore⟩

/-- **A row that belongs to a run** is added to it, or it has belonged to it. -/
theorem belongs_of_changes {before : Option OpsRow} {runId : Uuid}
    (change : Command.Changes (statement.meaning snapshot) before (some row))
    (isOf : belongs row = some runId) :
    (before = none ∧ ((∃ target, row = .target target ∧ statement = .insertTarget target) ∨
        ∃ input, row = .secretInput input ∧ statement = .addSecretInputs input)) ∨
      ∃ old, before = some old ∧ belongs old = some runId := by
  have touches := touches_of_changes change
  generalize isAfter : some row = after at touches
  have turned : ∀ {old new : RunTarget}, some row = some (.target new) →
      before = some (.target old) → new.runId = old.runId →
        ∃ old, before = some old ∧ belongs old = some runId := by
    rintro old new isNew rfl same
    obtain rfl := Option.some.inj isNew
    exact ⟨_, rfl, (congrArg some same.symm).trans isOf⟩
  cases touches with
  | targetInserted =>
      obtain rfl := Option.some.inj isAfter
      exact .inl ⟨rfl, .inl ⟨_, rfl, rfl⟩⟩
  | secretStored =>
      obtain rfl := Option.some.inj isAfter
      exact .inl ⟨rfl, .inr ⟨_, rfl, rfl⟩⟩
  | targetCanceled ofRun pending | targetMarked ofRun pending | targetEnded ofRun open?
  | targetFinished isTarget => exact .inr (turned isAfter rfl rfl)
  | @recovered _ current old after isChange =>
      subst isAfter
      cases old <;> simp only [OpsStatement.recovered, Option.ite_none_right_eq_some,
        Option.some.injEq, reduceCtorEq, and_false] at isChange
      all_goals
        obtain ⟨-, rfl⟩ := isChange
        exact .inr ⟨_, rfl, isOf⟩
  | @cleaned _ current old after isChange | @shellDeleted _ _ current old after isChange =>
      subst isAfter
      cases old <;> simp [OpsStatement.dropped] at isChange
  | @beaten _ _ _ _ _ current old after isChange =>
      subst isAfter
      cases old <;> simp only [OpsStatement.refreshed, Option.ite_none_right_eq_some,
        Option.some.injEq, reduceCtorEq] at isChange
      all_goals
        obtain ⟨-, rfl⟩ := isChange
        cases isOf
  | _ => first
    | cases isAfter; done
    | (obtain rfl := Option.some.inj isAfter
       cases isOf)

/-- The run is there with all that belongs to it. -/
structure Stored (store : OpsStore) (draft : RunService.Draft) : Prop where
  run : lookup store (OpsKey.run draft.runId) =
    some (.run { draft.run with nextEventSequence := 2 })
  targets : ∀ target ∈ draft.targetRows,
    lookup store (OpsKey.target target.runTargetId) = some (.target target)
  secrets : ∀ input, draft.secretRow = some input →
    lookup store (OpsKey.secretInput draft.runId) = some (.secretInput input)
  event : lookup store (OpsKey.event draft.eventId) =
    some (.event { draft.queuedEvent with sequence := 1 })
  only : ∀ k row, lookup store k = some row → belongs row = some draft.runId →
    (∃ target ∈ draft.targetRows, row = .target target) ∨
      ∃ input, draft.secretRow = some input ∧ row = .secretInput input

/-- The events of a creation. -/
inductive CreationLog (draft : RunService.Draft) : List OpsEvent → Prop where
  | intro {rows rows' rows'' : List OpsRow} {seen seen' seen'' : Nat}
      {inserts secrets : List OpsEvent} {run : Run} (isNew : run? rows ≠ none)
      (inserted : TargetsInserted draft.targetRows inserts) (stored : SecretsStored draft secrets)
      (isRun : run? rows' = some run) :
      CreationLog draft
        ([.ran (.insertRun { draft.run with nextEventSequence := 1 }) rows seen] ++ inserts ++
          secrets ++ [.ran (.nextSequence draft.runId) rows' seen',
            .ran (.insertEvent { draft.queuedEvent with sequence := run.nextEventSequence - 1 })
              rows'' seen''])

theorem creationLog_of_outcome {settings : OpsSettings} {draft : RunService.Draft}
    {unconfirmed : List Uuid} {run : Run}
    (outcome : Outcome settings (.persist draft unconfirmed) (.persisted run true) log) :
    CreationLog draft log := by
  cases outcome with
  | plain isPlain only => cases isPlain
  | created isNew same confirmed inserted stored appended =>
      cases appended with
      | intro isRun => exact .intro (by simp [isNew]) inserted stored isRun

theorem mem_creationLog {draft : RunService.Draft} (creates : CreationLog draft log)
    {rows : List OpsRow} {seen : Nat} (ran : .ran statement rows seen ∈ log) :
    adding statement = true ∨ statement = .nextSequence draft.runId := by
  obtain ⟨-, inserted, stored, -⟩ := creates
  simp only [List.mem_append, List.mem_cons, List.not_mem_nil, or_false] at ran
  rcases ran with ((first | insert) | secret) | next | event
  · obtain ⟨rfl, -, -⟩ := Event.ran.inj first
    exact .inl rfl
  · obtain ⟨target, -, rfl⟩ := statement_targetsInserted inserted insert
    exact .inl rfl
  · obtain ⟨input, -, rfl⟩ := statement_secretsStored stored secret
    exact .inl rfl
  · obtain ⟨rfl, -, -⟩ := Event.ran.inj next
    exact .inr rfl
  · obtain ⟨rfl, -, -⟩ := Event.ran.inj event
    exact .inl rfl

theorem mem_of_run? {rows : List OpsRow} {run : Run} (isFirst : run? rows = some run) :
    .run run ∈ rows := by
  unfold run? at isFirst
  split at isFirst
  · obtain rfl := Option.some.inj isFirst
    exact List.mem_cons_self
  · cases isFirst

/-- Each target has its insert. -/
theorem ran_targetsInserted {targets : List RunTarget}
    (inserted : TargetsInserted targets log) {target : RunTarget} (member : target ∈ targets) :
    ∃ rows seen, .ran (.insertTarget target) rows seen ∈ log := by
  induction inserted with
  | nil => cases member
  | cons rest ih =>
      rcases List.mem_cons.mp member with rfl | later
      · exact ⟨_, _, List.mem_cons_self⟩
      · obtain ⟨rows, seen, ran⟩ := ih later
        exact ⟨rows, seen, List.mem_cons_of_mem _ ran⟩

section Runs

variable {settings : OpsSettings} {db : OpsDb}

variable {rows : List OpsRow} {index place seen : Nat} {answer : OpsAnswer} {row : OpsRow}
  {txn : OpsTxn} {run : Run} {draft : RunService.Draft} {runId : Uuid}

/-- A row that a creation has inserted, and that is no run, is there after it. -/
theorem OpsCommit.inserted (committed : OpsCommit settings db place index txn answer)
    (account : OpsAccount settings db) (creates : CreationLog draft txn.log)
    {statement : OpsStatement} (ran : .ran statement rows seen ∈ txn.log)
    (isInsert : ∀ store, statement.meaning store = .insert row false)
    (tells : ∀ shown, statement.effects shown = shown.map .put) (notRun : ∀ run, row ≠ .run run) :
    rows = [row] ∧ lookup (committedAt db (place + 1)) row.key = some row := by
  obtain ⟨earlier, later, split⟩ := List.append_of_mem ran
  obtain ⟨n, -, ran, -⟩ := account.chronicle.ran_of_committed committed.next committed.found
    committed.done split
  have performed := ran.performed
  rw [show (opsService settings).meaning statement _ = _ from isInsert _] at performed
  obtain ⟨-, ⟨-, wrong, -⟩ | ⟨-, rfl, -⟩⟩ := Command.perform_insert performed
  · cases wrong
  refine ⟨rfl, committed.put_stays split (tells _) ?_⟩
  rintro other shown seen' ran' snapshot new? - change
  rcases mem_creationLog creates (split ▸ List.mem_append_right _ (List.mem_cons_of_mem _ ran'))
    with adds | rfl
  · rw [not_adding_of_changes change] at adds
    cases adds
  · have change : Command.Changes ((OpsStatement.nextSequence draft.runId).meaning snapshot)
        (some row) new? := change
    obtain ⟨run, isRun⟩ := run_of_numbered change
    exact absurd isRun (notRun run)

/-- What a creation begins with. -/
theorem OpsCommit.run_inserted (committed : OpsCommit settings db place index txn answer)
    (account : OpsAccount settings db) {later : List OpsEvent}
    (split : txn.log = .ran (.insertRun run) rows seen :: later) (isNew : run? rows ≠ none) :
    rows = [.run run] ∧ lookup (committedAt db place) (OpsKey.run run.runId) = none := by
  obtain ⟨n, -, ran, kept⟩ := account.chronicle.ran_of_committed committed.next committed.found
    committed.done (show txn.log = [] ++ .ran _ _ _ :: _ from split)
  obtain ⟨absent, ⟨-, -, rfl, -⟩ | ⟨-, rfl, -⟩⟩ := Command.perform_insert ran.performed
  · exact absurd rfl isNew
  · refine ⟨rfl, ?_⟩
    rw [committedAt, ← kept (.run run.runId) List.mem_cons_self]
    exact absent

/-- Numbering an event counts its run up. -/
theorem OpsCommit.numbers
    (committed : OpsCommit settings db place index txn answer) (account : OpsAccount settings db)
    {earlier later : List OpsEvent}
    (split : txn.log = earlier ++ .ran (.nextSequence runId) rows seen :: later) {old : Run}
    (isRun : run? rows = some run)
    (before : lookup (applyAll (committedAt db place) (logged OpsStatement.effects earlier))
      (OpsKey.run runId) = some (.run old)) :
    run = { old with nextEventSequence := old.nextEventSequence + 1 } ∧
      lookup (applyAll (applyAll (committedAt db place) (logged OpsStatement.effects earlier))
        (rows.map .put)) (OpsKey.run runId) = some (.run run) := by
  obtain ⟨n, -, ran, kept⟩ := account.chronicle.ran_of_committed committed.next committed.found
    committed.done split
  have numbered : (opsSet OpsRow.runs (fun run => run.runId = runId)
      (fun run => { run with nextEventSequence := run.nextEventSequence + 1 }) fun _ => rfl).perform
        OpsRow.clash _ _ = some (rows, rows.map .put) := ran.performed
  have member : OpsRow.run run ∈ rows := mem_of_run? isRun
  have isLast := fun state => RowKind.lookup_updated (OpsRow.runs.map_wrap _) numbered member state
  obtain ⟨other, found, holds, -, same⟩ :=
    (RowKind.mem_updated (OpsRow.runs.map_wrap _) numbered).mp member
  obtain rfl := OpsRow.run.inj same
  obtain rfl : other.runId = runId := of_decide_eq_true holds
  refine ⟨?_, isLast _⟩
  -- the row that is counted up is still there when the unit of work commits
  have isTouched : OpsKey.run other.runId ∈ touched OpsStore (logged OpsStatement.effects earlier ++
      OpsStatement.effects (.nextSequence other.runId) rows) := by
    rw [touched_append]
    exact List.mem_append_right _ (mem_touched.mpr ⟨_, List.mem_map_of_mem member, rfl⟩)
  have there := (lookup_applyAll_congr _ (kept _ isTouched)).trans before
  obtain rfl := OpsRow.run.inj (Option.some.inj (found.symm.trans there))
  rfl

/-- **A creation** leaves its run, with its first event. -/
theorem OpsCommit.stores_run (committed : OpsCommit settings db place index txn answer)
    (account : OpsAccount settings db) (creates : CreationLog draft txn.log) :
    lookup (committedAt db (place + 1)) (OpsKey.run draft.runId) =
        some (.run { draft.run with nextEventSequence := 2 }) ∧
      lookup (committedAt db (place + 1)) (OpsKey.event draft.eventId) =
        some (.event { draft.queuedEvent with sequence := 1 }) := by
  have isCreation := creates
  generalize log : txn.log = events at creates
  obtain ⟨isNew, inserted, stored, isRun⟩ := creates
  rename_i rows rows' rows'' seen seen' seen'' inserts secrets run
  obtain ⟨rfl, -⟩ := OpsCommit.run_inserted committed account log isNew
  generalize isFirst : { draft.run with nextEventSequence := 1 } = first at log
  have named : draft.runId = first.runId := by
    rw [← isFirst]
    rfl
  -- the run is there when its first event is numbered
  have before : lookup (applyAll (committedAt db place) (logged OpsStatement.effects
      ([.ran (.insertRun first) [.run first] seen] ++ inserts ++ secrets)))
      (OpsKey.run draft.runId) = some (.run first) := by
    have isThere : lookup (applyAll (committedAt db place) [.put (.run first)])
        (OpsKey.run draft.runId) = some (.run first) := by
      rw [applyAll_cons, applyAll_nil, lookup_apply, named]
      exact if_pos rfl
    have log' := log.trans (congrArg (· ++ _) (List.append_assoc _ _ _))
    rw [List.append_assoc]
    refine committed.between (P := (· = some (.run first))) log' ?_ isThere
    rintro other shown seen ran snapshot old? new? - - change rfl
    have adds : adding other = true := by
      rcases List.mem_append.mp ran with insert | secret
      · obtain ⟨target, -, rfl⟩ := statement_targetsInserted inserted insert
        rfl
      · obtain ⟨input, -, rfl⟩ := statement_secretsStored stored secret
        rfl
    rw [not_adding_of_changes change] at adds
    cases adds
  generalize [.ran (.insertRun first) [.run first] seen] ++ inserts ++ secrets = earlier
    at log before
  obtain ⟨rfl, numbered⟩ := OpsCommit.numbers committed account log isRun before
  have log' : txn.log = (earlier ++ [.ran (.nextSequence draft.runId) rows' seen']) ++
      .ran (.insertEvent { draft.queuedEvent with sequence := 1 }) rows'' seen'' :: [] := by
    rw [log, List.append_assoc, ← isFirst]
    rfl
  obtain ⟨rfl, isEvent⟩ := OpsCommit.inserted committed account isCreation
    (log' ▸ List.mem_append_right _ List.mem_cons_self) (fun _ => rfl) (fun _ => rfl)
    (fun _ => by simp)
  refine ⟨?_, isEvent⟩
  have after : committedAt db (place + 1) = applyAll (applyAll (applyAll (committedAt db place)
      (logged OpsStatement.effects earlier)) (rows'.map .put))
        [.put (.event { draft.queuedEvent with sequence := 1 })] := by
    rw [committedAt, committed.after, log']
    simp only [logged_append, logged_ran, logged_nil, List.append_nil, applyAll_append]
    rfl
  rw [after, lookup_applyAll_of_not_mem _ (by simp [touched, written, key, OpsRow.key]), numbered,
    ← isFirst]

/-- The rows of a run are added by the call that creates it. -/
theorem creation_of_adding {call : OpsCall} {log : List OpsEvent}
    (outcome : Outcome settings call answer log) {statement : OpsStatement}
    (ran : .ran statement rows seen ∈ log)
    (isOf : belongs row = some runId)
    (adds : (∃ target, row = .target target ∧ statement = .insertTarget target) ∨
      ∃ input, row = .secretInput input ∧ statement = .addSecretInputs input) :
    ∃ draft unconfirmed run, call = .persist draft unconfirmed ∧ answer = .persisted run true ∧
      draft.runId = runId ∧ ((∃ target ∈ draft.targetRows, row = .target target) ∨
        ∃ input, draft.secretRow = some input ∧ row = .secretInput input) := by
  have issued := issued_of_outcome outcome ran
  have isNew : ∀ {draft unconfirmed run}, call = .persist draft unconfirmed →
      answer = .persisted run false → False := by
    rintro draft unconfirmed run rfl rfl
    cases outcome with
    | plain isPlain only => cases isPlain
    | found notNew isThere same =>
        simp only [List.mem_cons, Event.ran.injEq, List.not_mem_nil, or_false] at ran
        rcases ran with ⟨rfl, -, -⟩ | ⟨rfl, -, -⟩ <;>
          rcases adds with ⟨target, -, wrong⟩ | ⟨input, -, wrong⟩ <;> cases wrong
  have persisted : ∀ {draft unconfirmed}, call = .persist draft unconfirmed →
      ∃ run, answer = .persisted run true := by
    rintro draft unconfirmed rfl
    cases outcome with
    | plain isPlain only => cases isPlain
    | created => exact ⟨_, rfl⟩
    | found => exact (isNew rfl rfl).elim
  rcases adds with ⟨target, rfl, rfl⟩ | ⟨input, rfl, rfl⟩
  · obtain ⟨draft, unconfirmed, isCall, member⟩ := issued
    obtain ⟨run, isAnswer⟩ := persisted isCall
    refine ⟨draft, unconfirmed, run, isCall, isAnswer, ?_, .inl ⟨target, member, rfl⟩⟩
    obtain ⟨of, -, rfl⟩ := List.mem_map.mp member
    exact Option.some.inj isOf
  · obtain ⟨draft, unconfirmed, isCall, isRow⟩ := issued
    obtain ⟨run, isAnswer⟩ := persisted isCall
    refine ⟨draft, unconfirmed, run, isCall, isAnswer, ?_, .inr ⟨input, isRow, rfl⟩⟩
    obtain ⟨of, -, rfl⟩ := Option.map_eq_some_iff.mp isRow
    exact Option.some.inj isOf

/-- **A row that belongs to a run** comes with the run. -/
theorem run_of_belongs (account : OpsAccount settings db) {n : Nat}
    (bound : n ≤ db.history.length) {k : OpsKey}
    (found : lookup (committedAt db n) k = some row) (isOf : belongs row = some runId) :
    ∃ run, lookup (committedAt db n) (OpsKey.run runId) = some (.run run) := by
  induction n generalizing row with
  | zero =>
      rw [committedAt, Db.stateAt_zero, lookup_empty] at found
      cases found
  | succ n ih =>
      obtain ⟨index, txn, answer, committed⟩ := account.commit (Nat.lt_of_succ_le bound)
      have either := committed.keeps (P := fun row? => ∀ row, row? = some row →
        belongs row = some runId →
          (∃ run, lookup (committedAt db n) (OpsKey.run runId) = some (.run run)) ∨
            ∃ draft unconfirmed run, txn.call = .persist draft unconfirmed ∧
              answer = .persisted run true ∧ draft.runId = runId) ?_ ?_ row found isOf
      · rcases either with ⟨run, before⟩ | ⟨draft, unconfirmed, run, call, rfl, rfl⟩
        · obtain ⟨later, isLater, -⟩ := run_later account (Nat.le_succ n) bound before
          exact ⟨later, isLater⟩
        · have outcome := committed.outcome
          rw [call] at outcome
          exact ⟨_, (OpsCommit.stores_run committed account
            (creationLog_of_outcome outcome)).1⟩
      · rintro statement shown seen ran snapshot old? new? - - change keeps row rfl isOf
        rcases belongs_of_changes change isOf with ⟨-, adds⟩ | ⟨old, rfl, wasOf⟩
        · obtain ⟨draft, unconfirmed, run, call, isAnswer, named, -⟩ :=
            creation_of_adding committed.outcome ran isOf adds
          exact .inr ⟨draft, unconfirmed, run, call, isAnswer, named⟩
        · exact keeps old rfl wasOf
      · exact fun row found isOf => .inl (ih (Nat.le_of_succ_le bound) found isOf)

/-- **A creation** stores the run with all that belongs to it. -/
theorem OpsCommit.stored (committed : OpsCommit settings db place index txn answer)
    (account : OpsAccount settings db) {unconfirmed : List Uuid}
    (call : txn.call = .persist draft unconfirmed) (isAnswer : answer = .persisted run true) :
    lookup (committedAt db place) (OpsKey.run draft.runId) = none ∧
      Stored (committedAt db (place + 1)) draft := by
  subst isAnswer
  have bound : place < db.history.length := (List.getElem?_eq_some_iff.mp committed.next).1
  have outcome := committed.outcome
  rw [call] at outcome
  have creates := creationLog_of_outcome outcome
  obtain ⟨isRun, isEvent⟩ := OpsCommit.stores_run committed account creates
  have isCreation := creates
  generalize log : txn.log = events at creates
  obtain ⟨isNew, inserted, stored, -⟩ := creates
  rename_i rows rows' rows'' seen seen' seen'' inserts secrets last
  obtain ⟨-, absent⟩ := OpsCommit.run_inserted committed account log isNew
  have among : ∀ event, event ∈ inserts ∨ event ∈ secrets → event ∈ txn.log := by
    intro event either
    rw [log]
    simp only [List.mem_append]
    exact .inl (either.imp_left .inr)
  refine ⟨absent, isRun, ?_, ?_, isEvent, ?_⟩
  · intro target member
    obtain ⟨shown, at_, ran⟩ := ran_targetsInserted inserted member
    exact (OpsCommit.inserted committed account isCreation (among _ (.inl ran)) (fun _ => rfl)
      (fun _ => rfl) (fun _ => by simp)).2
  · intro input isInput
    cases stored with
    | none absent => exact absurd (absent.symm.trans isInput) (by simp)
    | some present =>
        obtain rfl := Option.some.inj (present.symm.trans isInput)
        have isStored := (OpsCommit.inserted committed account isCreation
          (among _ (.inr List.mem_cons_self)) (fun _ => rfl) (fun _ => rfl) (fun _ => by simp)).2
        obtain ⟨of, -, rfl⟩ := Option.map_eq_some_iff.mp present
        exact isStored
  · intro k row found isOf
    refine committed.keeps (P := fun row? => ∀ row, row? = some row →
      belongs row = some draft.runId → (∃ target ∈ draft.targetRows, row = .target target) ∨
        ∃ input, draft.secretRow = some input ∧ row = .secretInput input) ?_ ?_ row found isOf
    · rintro statement shown seen ran snapshot old? new? - - change keeps row rfl isOf
      rcases belongs_of_changes change isOf with ⟨-, adds⟩ | ⟨old, rfl, wasOf⟩
      · obtain ⟨draft', unconfirmed', run', call', -, -, among⟩ :=
          creation_of_adding committed.outcome ran isOf adds
        obtain ⟨rfl, -⟩ := OpsCall.persist.inj (call.symm.trans call')
        exact among
      · -- no statement of a creation changes such a row
        rcases mem_creationLog isCreation ran with adds | rfl
        · rw [not_adding_of_changes change] at adds
          cases adds
        · have change : Command.Changes ((OpsStatement.nextSequence draft.runId).meaning snapshot)
              (some old) (some row) := change
          obtain ⟨run, rfl⟩ := run_of_numbered change
          cases wasOf
    · intro row before isOf
      obtain ⟨run, isThere⟩ := run_of_belongs account bound.le before isOf
      exact absurd (absent.symm.trans isThere) (by simp)

end Runs

/-! ## One run for a key -/

/-- A target keeps its run and its host, and an event does not change. -/
theorem target_of_changes {statement : OpsStatement} {snapshot : OpsStore} {old row : OpsRow}
    (change : Command.Changes (statement.meaning snapshot) (some old) (some row)) :
    (∀ target, row = .target target → ∃ before, old = .target before ∧
        target.runId = before.runId ∧ target.hostId = before.hostId) ∧
      ∀ event, row ≠ .event event := by
  have touches := touches_of_changes change
  generalize isBefore : some old = before at touches
  generalize isAfter : some row = after at touches
  cases touches with
  | @recovered _ current old' after isChange =>
      obtain rfl := Option.some.inj isBefore
      subst isAfter
      cases old <;> simp only [OpsStatement.recovered, Option.ite_none_right_eq_some,
        Option.some.injEq, reduceCtorEq, and_false] at isChange
      all_goals
        obtain ⟨-, rfl⟩ := isChange
        simp
  | @cleaned _ current old' after isChange | @shellDeleted _ _ current old' after isChange =>
      subst isAfter
      cases old' <;> simp [OpsStatement.dropped] at isChange
  | @beaten _ _ _ _ _ current old' after isChange =>
      obtain rfl := Option.some.inj isBefore
      subst isAfter
      cases old <;> simp only [OpsStatement.refreshed, Option.ite_none_right_eq_some,
        Option.some.injEq, reduceCtorEq] at isChange
      all_goals
        obtain ⟨-, rfl⟩ := isChange
        simp
  | _ => first
    | cases isBefore; done
    | cases isAfter; done
    | (obtain rfl := Option.some.inj isBefore
       obtain rfl := Option.some.inj isAfter
       refine ⟨?_, by simp⟩
       rintro target isTarget
       cases isTarget
       exact ⟨_, rfl, rfl, rfl⟩)
    | (obtain rfl := Option.some.inj isAfter
       exact ⟨by simp, by simp⟩)

/-- **No update** makes rows clash. -/
theorem keepsApart (settings : OpsSettings) : (opsService settings).KeepsApart := by
  intro statement snapshot old row change other clashes
  have change : Command.Changes (statement.meaning snapshot) (some old) (some row) := change
  have clashes : OpsRow.clash other row = true := clashes
  show OpsRow.clash other old = true
  cases row with
  | run run =>
      rcases run_of_changes change with ⟨absent, -⟩ | ⟨before, same, asked⟩
      · cases absent
      · obtain rfl := Option.some.inj same
        cases other <;> simp only [OpsRow.clash, Bool.false_eq_true] at clashes ⊢
        rw [asked.requestedBy, asked.idempotencyKey] at clashes
        exact clashes
  | target target =>
      obtain ⟨before, rfl, runId, hostId⟩ := (target_of_changes change).1 target rfl
      cases other <;> simp only [OpsRow.clash, Bool.false_eq_true] at clashes ⊢
      rw [runId, hostId] at clashes
      exact clashes
  | event event => exact absurd rfl ((target_of_changes change).2 event)
  | _ => cases other <;> cases clashes

theorem clash_symm (row other : OpsRow) : OpsRow.clash row other = OpsRow.clash other row := by
  cases row <;> cases other <;> simp only [OpsRow.clash, eq_comm]

/-- What is known of the runs of a database. -/
structure Requested (settings : OpsSettings) (db : OpsDb) : Prop where
  account : OpsAccount settings db
  unclashed : db.Unclashed OpsRow.clash

/-- **In every run** from the empty database. -/
theorem requested_inductive (settings : OpsSettings) :
    (opsSystem settings (· = OpsStore.empty)).Inductive fun world =>
      Requested settings world.db := by
  have programs : ∀ call, Program.Ends (fun _ _ => True) (Outcome settings call) []
      ((opsService settings).program call) := ends_program
  refine System.Inductive.unrestricted (Service.inductive_of_effect ?_ ?_)
  · rintro state rfl
    refine ⟨⟨.initial _, fun _ _ found => by simp at found, fun _ _ _ _ _ => trivial⟩, ?_, ?_, ?_⟩
    · rintro k k' row row' - found
      rw [lookup_empty] at found
      cases found
    · intro id txn found
      cases found
    · rintro i j t t' - found
      cases found
  · rintro world action db ⟨⟨chronicle, points, -⟩, unclashed⟩ - effect -
    refine ⟨⟨chronicle.effect tellable effect, ?_, fun _ _ _ _ _ => trivial⟩, ?_⟩
    · exact points.effect (fun _ _ _ _ _ _ => trivial) programs effect
    · exact unclashed.effect chronicle.exclusive (keepsApart settings) clash_symm effect

section Runs

variable {settings : OpsSettings} {db : OpsDb}

variable {index : Nat} {run : Run}

/-- The commit after so many others has created the run of the draft. -/
structure Creates (db : OpsDb) (index place : Nat) (draft : RunService.Draft) : Prop where
  next : db.history[place]? = some index
  created : ∃ unconfirmed run,
    Answered db index (.persist draft unconfirmed) (.persisted run true)
  absent : lookup (committedAt db place) (OpsKey.run draft.runId) = none
  stored : Stored (committedAt db (place + 1)) draft

end Runs

/-! ## A repeated request -/

/-- A request for one host. -/
def requestDraft (runId eventId runTargetId : Uuid) : RunService.Draft where
  runId := runId
  kind := .ping
  targetSpec := []
  resolvedTargets := []
  operationSpec := []
  inventorySnapshot := []
  credentialVersions := []
  timeoutSeconds := 60
  forks := 1
  requestedBy := 1
  idempotencyKey := "key"
  fingerprint := "fingerprint"
  now := 0
  targets := [⟨runTargetId, 4, "web", "10.0.0.1"⟩]
  eventId := eventId

end OpsComposer.Coordination
