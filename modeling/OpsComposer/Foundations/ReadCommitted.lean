import OpsComposer.Foundations.Programs
import OpsComposer.Foundations.RowStore

/-!
# Transactions under READ COMMITTED

A database that runs any number of transaction programs at once, at the isolation
level READ COMMITTED with row locks:

* a statement sees the state that was committed when it started, with the writes of
  its own transaction applied;
* a statement that changes or locks rows waits while another unfinished transaction
  has changed or locked one of them, and then looks at the new version of the row: it
  is left alone when it is gone or does not meet the condition any more;
* an insert waits for unfinished inserts that a unique index does not let stand
  beside it, and is refused by committed ones;
* a transaction that has changed a watched column checks a constraint before it
  commits, under a lock that one transaction at a time can have and that it keeps
  until its writes are committed;
* writes become visible to others together, at the commit, and not at all when the
  transaction fails.

Transactions are never removed from the list, and each keeps the log of what it was
told, so that a state carries the history of the run.
-/

set_option autoImplicit false

namespace OpsComposer.Foundations

open RowStore

/-! ## Statements -/

/-- A statement as the database executes it, with what it computes from its
snapshot already filled in. -/
inductive Command (σ κ ρ : Type) [DecidableEq κ] [RowStore σ κ ρ] where
  | select (rows : List ρ)
  | update (condition : ρ → Bool) (set : ρ → ρ) (keeps : ∀ r, key σ (set r) = key σ r)
      (watched : Bool) (returning : ρ → List ρ)
  | delete (condition : ρ → Bool)
  | insert (row : ρ) (doNothing : Bool)
  /-- `INSERT … ON CONFLICT DO NOTHING`, about the key of the row. -/
  | insertAbsent (row : ρ)
  | upsert (row : ρ) (set : ρ → ρ) (keeps : ∀ r, key σ (set r) = key σ r)
  /-- `INSERT … ON CONFLICT … DO UPDATE SET … WHERE …`: a row that is there and does not meet
  the condition stays. -/
  | upsertIf (row : ρ) (condition : ρ → Bool) (set : ρ → ρ)
      (keeps : ∀ r, key σ (set r) = key σ r)
  /-- Data-modifying common table expressions and cascades, about the rows under some keys: in
  the current state each is left alone, deleted, or replaced by a new version. -/
  | rewrite (keys : List κ) (change : σ → ρ → Option (Option ρ))
      (keeps : ∀ s r r', change s r = some (some r') → key σ r' = key σ r)

namespace Command

variable {σ κ ρ : Type} [DecidableEq κ] [RowStore σ κ ρ]

/-- `SELECT … FOR UPDATE`. -/
def lock (condition : ρ → Bool) : Command σ κ ρ :=
  .update condition id (fun _ => rfl) false fun row => [row]

/-- An update that returns the new rows. -/
def set (condition : ρ → Bool) (f : ρ → ρ) (keeps : ∀ r, key σ (f r) = key σ r) :
    Command σ κ ρ :=
  .update condition f keeps false fun row => [row]

/-- The columns that the statement sets are watched by the deferred constraint. -/
def isWatched : Command σ κ ρ → Bool
  | .update _ _ _ watched _ => watched
  | _ => false

/-- The command only reads. -/
def isSelect : Command σ κ ρ → Bool
  | .select _ => true
  | _ => false

/-- The row that the statement adds. -/
def row? : Command σ κ ρ → Option ρ
  | .insert row _ => some row
  | .insertAbsent row => some row
  | .upsert row _ _ => some row
  | .upsertIf row _ _ _ => some row
  | _ => none

/-- The keys of the rows that the statement locks, judged by its snapshot. -/
def targets (snapshot : σ) : Command σ κ ρ → List κ
  | .select _ => []
  | .update condition _ _ _ _ => ((rows snapshot).filter condition).map (key σ)
  | .delete condition => ((rows snapshot).filter condition).map (key σ)
  | .insert row _ => [key σ row]
  | .insertAbsent row => [key σ row]
  | .upsert row _ _ => [key σ row]
  | .upsertIf row _ _ _ => [key σ row]
  | .rewrite keys _ _ => keys

/-- The rows that met the condition in the snapshot and still do. -/
def found (snapshot current : σ) (condition : ρ → Bool) : List ρ :=
  (rows current).filter fun row =>
    condition row && (lookup snapshot (key σ row)).any condition

theorem mem_found {snapshot current : σ} {condition : ρ → Bool} {row : ρ} :
    row ∈ found snapshot current condition ↔
      row ∈ rows current ∧ condition row = true ∧
        ∃ old, lookup snapshot (key σ row) = some old ∧ condition old = true := by
  simp [found, Option.any_eq_true]

/-- A unique index does not let the row stand beside another row. -/
def collides (clash : ρ → ρ → Bool) (current : σ) (row : ρ) : Bool :=
  (rows current).any fun other => decide (key σ other ≠ key σ row) && clash other row

/-- The rows under some keys that are changed, with what is left of each. -/
def changed (current : σ) (keys : List κ) (change : σ → ρ → Option (Option ρ)) :
    List (ρ × Option ρ) :=
  (rows current).filterMap fun row =>
    if key σ row ∈ keys then (change current row).map fun after => (row, after) else none

theorem mem_changed {current : σ} {keys : List κ} {change : σ → ρ → Option (Option ρ)}
    {row : ρ} {after : Option ρ} :
    (row, after) ∈ changed current keys change ↔
      row ∈ rows current ∧ key σ row ∈ keys ∧ change current row = some after := by
  simp only [changed, List.mem_filterMap, Option.ite_none_right_eq_some, Option.map_eq_some_iff,
    Prod.mk.injEq]
  constructor
  · rintro ⟨row, member, among, after, isChange, rfl, rfl⟩
    exact ⟨member, among, isChange⟩
  · rintro ⟨member, among, isChange⟩
    exact ⟨row, member, among, after, isChange, rfl, rfl⟩

/-- The write that leaves a row as a change has it. -/
def writeOf (σ : Type) [RowStore σ κ ρ] (entry : ρ × Option ρ) : Write κ ρ :=
  match entry.2 with
  | some row => .put row
  | none => .erase (key σ entry.1)

/-- What the statement returns and writes, or that it raises. -/
def perform (clash : ρ → ρ → Bool) (snapshot current : σ) :
    Command σ κ ρ → Option (List ρ × List (Write κ ρ))
  | .select rows => some (rows, [])
  | .update condition set _ _ returning =>
      let changed := (found snapshot current condition).map set
      some (changed.flatMap returning, changed.map .put)
  | .delete condition =>
      let deleted := found snapshot current condition
      some (deleted, deleted.map fun row => .erase (key σ row))
  | .insert row doNothing =>
      if (lookup current (key σ row)).isSome then none
      else if collides clash current row then if doNothing then some ([], []) else none
      else some ([row], [.put row])
  | .insertAbsent row =>
      if (lookup current (key σ row)).isSome then some ([], [])
      else if collides clash current row then none else some ([row], [.put row])
  | .upsert row set _ =>
      match lookup current (key σ row) with
      | some old => some ([set old], [.put (set old)])
      | none => if collides clash current row then none else some ([row], [.put row])
  | .upsertIf row condition set _ =>
      match lookup current (key σ row) with
      | some old => if condition old then some ([set old], [.put (set old)]) else some ([], [])
      | none => if collides clash current row then none else some ([row], [.put row])
  | .rewrite keys change _ =>
      let entries := changed current keys change
      some (entries.map fun entry => entry.2.getD entry.1, entries.map (writeOf σ))

/-- How a statement may change what lies under a key. -/
inductive Changes : Command σ κ ρ → Option ρ → Option ρ → Prop where
  | update {condition : ρ → Bool} {set : ρ → ρ} {keeps : ∀ r, key σ (set r) = key σ r}
      {watched : Bool} {returning : ρ → List ρ} {old : ρ} (holds : condition old = true) :
      Changes (.update condition set keeps watched returning) (some old) (some (set old))
  | delete {condition : ρ → Bool} {old : ρ} (holds : condition old = true) :
      Changes (.delete condition) (some old) none
  | insert {row : ρ} {doNothing : Bool} : Changes (.insert row doNothing) none (some row)
  | inserted {row : ρ} : Changes (.insertAbsent row) none (some row)
  | added {row : ρ} {set : ρ → ρ} {keeps : ∀ r, key σ (set r) = key σ r} :
      Changes (.upsert row set keeps) none (some row)
  | replaced {row : ρ} {set : ρ → ρ} {keeps : ∀ r, key σ (set r) = key σ r} {old : ρ}
      (same : key σ old = key σ row) : Changes (.upsert row set keeps) (some old) (some (set old))
  | addedIf {row : ρ} {condition : ρ → Bool} {set : ρ → ρ}
      {keeps : ∀ r, key σ (set r) = key σ r} :
      Changes (.upsertIf row condition set keeps) none (some row)
  | replacedIf {row : ρ} {condition : ρ → Bool} {set : ρ → ρ}
      {keeps : ∀ r, key σ (set r) = key σ r} {old : ρ} (same : key σ old = key σ row)
      (holds : condition old = true) :
      Changes (.upsertIf row condition set keeps) (some old) (some (set old))
  | rewritten {keys : List κ} {change : σ → ρ → Option (Option ρ)}
      {keeps : ∀ s r r', change s r = some (some r') → key σ r' = key σ r} {current : σ} {old : ρ}
      {after : Option ρ} (isThere : lookup current (key σ old) = some old)
      (among : key σ old ∈ keys) (isChange : change current old = some after) :
      Changes (.rewrite keys change keeps) (some old) after

end Command

/-! ## Transactions and databases -/

/-- The committed state that a statement started from, and how many commits it has
seen. -/
structure Snapshot (σ : Type) where
  state : σ
  seen : Nat

/-- How far a transaction is. -/
inductive TxnStatus where
  | running
  /-- The deferred constraint has been checked, and the commit is under way. -/
  | checked
  | committed
  | aborted
  deriving DecidableEq

/-- A database service: the programs of its calls, what its statements do, its unique
indexes and its deferred constraint. -/
structure Service (σ κ ρ S ε α C : Type) [DecidableEq κ] [RowStore σ κ ρ] where
  program : C → Program S ρ ε α
  meaning : S → σ → Command σ κ ρ
  /-- Two rows under different keys that a unique index does not let stand together. -/
  clash : ρ → ρ → Bool
  /-- The deferred constraint. -/
  constraint : σ → Bool

/-- A transaction: the call it serves, what is left of the program, the snapshot of a
statement that is waiting, and what it has written and was told so far. -/
structure Txn (σ κ ρ S ε α C : Type) where
  call : C
  program : Program S ρ ε α
  snapshot : Option (Snapshot σ) := none
  writes : List (Write κ ρ) := []
  /-- A watched column has been set. -/
  watched : Bool := false
  status : TxnStatus := .running
  log : List (Event S ρ) := []

/-- A committed state, all transactions so far, and the positions of the committed
ones in the order of their commits. -/
structure Db (σ κ ρ S ε α C : Type) where
  state : σ
  txns : List (Txn σ κ ρ S ε α C) := []
  history : List Nat := []

section Machine

variable {σ κ ρ S ε α C : Type} [DecidableEq κ] [RowStore σ κ ρ]

namespace Txn

/-- The transaction holds its locks. -/
def live (txn : Txn σ κ ρ S ε α C) : Bool :=
  decide (txn.status = .running ∨ txn.status = .checked)

/-- What a transaction sees of a committed state. -/
def view (txn : Txn σ κ ρ S ε α C) (state : σ) : σ := applyAll state txn.writes

/-- The keys that the transaction has changed or locked. -/
def holds (txn : Txn σ κ ρ S ε α C) : List κ := touched σ txn.writes

/-- A transaction that has done nothing yet. -/
def start (service : Service σ κ ρ S ε α C) (call : C) : Txn σ κ ρ S ε α C where
  call := call
  program := service.program call

end Txn

namespace Db

/-- The unfinished transactions but one. -/
def others (db : Db σ κ ρ S ε α C) (id : Nat) : List (Txn σ κ ρ S ε α C) :=
  (db.txns.zipIdx.filter fun entry => decide (entry.2 ≠ id) && entry.1.live).map Prod.fst

omit [DecidableEq κ] [RowStore σ κ ρ] in
theorem mem_others {db : Db σ κ ρ S ε α C} {id : Nat} {other : Txn σ κ ρ S ε α C} :
    other ∈ db.others id ↔ ∃ j, j ≠ id ∧ db.txns[j]? = some other ∧ other.live = true := by
  simp only [others, List.mem_map, List.mem_filter, Bool.and_eq_true, decide_eq_true_eq]
  constructor
  · rintro ⟨⟨txn, j⟩, ⟨member, apart, live⟩, rfl⟩
    exact ⟨j, apart, List.mem_zipIdx_iff_getElem?.mp member, live⟩
  · rintro ⟨j, apart, found, live⟩
    exact ⟨(other, j), ⟨List.mem_zipIdx_iff_getElem?.mpr found, apart, live⟩, rfl⟩

/-- The snapshot of the statement that the transaction executes next. -/
def snapshotFor (db : Db σ κ ρ S ε α C) (txn : Txn σ κ ρ S ε α C) : Snapshot σ :=
  txn.snapshot.getD ⟨db.state, db.history.length⟩

variable (service : Service σ κ ρ S ε α C)

/-- A statement waits for another transaction that holds one of its rows, that has
added a row beside which its own row cannot stand, or that is changing such a row. -/
def waitsFor (state snapshot : σ) (command : Command σ κ ρ)
    (other : Txn σ κ ρ S ε α C) : Bool :=
  (command.targets snapshot).any (fun k => decide (k ∈ other.holds)) ||
    command.row?.any fun row =>
      (other.writes.any fun write => (left write).any fun added => service.clash added row) ||
        (rows state).any fun old =>
          service.clash old row && decide (key σ old ∈ other.holds)

/-- What the next statement of a transaction returns and writes; `none` while it
waits, and `some none` when it raises. -/
def performed (db : Db σ κ ρ S ε α C) (id : Nat)
    (txn : Txn σ κ ρ S ε α C) (statement : S) :
    Option (Option (List ρ × List (Write κ ρ))) :=
  let snapshot := txn.view (db.snapshotFor txn).state
  let command := service.meaning statement snapshot
  if (db.others id).any (waitsFor service db.state snapshot command) then none
  else some (command.perform service.clash snapshot (txn.view db.state))

/-- The transaction after its next statement. -/
def afterStatement (db : Db σ κ ρ S ε α C)
    (txn : Txn σ κ ρ S ε α C) (statement : S) (next : List ρ → Program S ρ ε α)
    (rows : List ρ) (writes : List (Write κ ρ)) : Txn σ κ ρ S ε α C :=
  { txn with
    program := next rows
    snapshot := none
    writes := txn.writes ++ writes
    watched := txn.watched ||
      ((service.meaning statement (txn.view (db.snapshotFor txn).state)).isWatched &&
        !writes.isEmpty)
    log := txn.log ++ [.ran statement rows (db.snapshotFor txn).seen] }

/-- The transaction at one position is replaced. -/
def replace (db : Db σ κ ρ S ε α C) (id : Nat) (txn : Txn σ κ ρ S ε α C) : Db σ κ ρ S ε α C :=
  { db with txns := db.txns.set id txn }

end Db

/-- What the environment decides: which call comes in, which transaction goes on, and
which one fails. -/
inductive DbAction (C : Type) where
  | begin (call : C)
  | clock (id now : Nat)
  | snapshot (id : Nat)
  | perform (id : Nat)
  | check (id : Nat)
  | commit (id : Nat)
  | abort (id : Nat)

namespace Db

variable (service : Service σ κ ρ S ε α C) (db : Db σ κ ρ S ε α C)

/-- One step of a transaction that is running. -/
def move (id : Nat) (txn : Txn σ κ ρ S ε α C) :
    DbAction C → Option (Txn σ κ ρ S ε α C)
  | .clock _ now =>
      match txn.program with
      | .clock next => some { txn with program := next now, log := txn.log ++ [.clock now] }
      | _ => none
  | .snapshot _ =>
      match txn.program with
      | .run statement _ =>
          if (service.meaning statement (txn.view db.state)).isSelect then none
          else some { txn with snapshot := some ⟨db.state, db.history.length⟩ }
      | _ => none
  | .perform _ =>
      match txn.program with
      | .run statement next =>
          (db.performed service id txn statement).map fun result =>
            match result with
            | none => { txn with status := .aborted }
            | some (rows, writes) => db.afterStatement service txn statement next rows writes
      | _ => none
  | .check _ =>
      match txn.program with
      | .done _ =>
          if txn.watched = false ∨ (db.others id).any (fun other => other.status = .checked) then none
          else if service.constraint (txn.view db.state) then some { txn with status := .checked }
          else some { txn with status := .aborted }
      | _ => none
  | _ => none

/-- A commit applies the writes to the committed state. -/
def commit (id : Nat) (txn : Txn σ κ ρ S ε α C) : Option (Db σ κ ρ S ε α C) :=
  match txn.program with
  | .done _ =>
      if txn.status = .checked ∨ (txn.status = .running ∧ txn.watched = false) then
        some
          { state := txn.view db.state
            txns := db.txns.set id { txn with status := .committed }
            history := db.history ++ [id] }
      else none
  | _ => none

/-- One step of a transaction, if it can be made. -/
def step : DbAction C → Option (Db σ κ ρ S ε α C)
  | .begin call => some { db with txns := db.txns ++ [Txn.start service call] }
  | .commit id => db.txns[id]?.bind (db.commit id)
  | .abort id =>
      db.txns[id]?.bind fun txn =>
        if txn.live then some (db.replace id { txn with status := .aborted }) else none
  | .clock id now => advance id (.clock id now)
  | .snapshot id => advance id (.snapshot id)
  | .perform id => advance id (.perform id)
  | .check id => advance id (.check id)
where
  /-- The step of the transaction at one position. -/
  advance (id : Nat) (action : DbAction C) : Option (Db σ κ ρ S ε α C) :=
    db.txns[id]?.bind fun txn =>
      if txn.status = .running then (db.move service id txn action).map (db.replace id) else none

end Db

end Machine

end OpsComposer.Foundations
