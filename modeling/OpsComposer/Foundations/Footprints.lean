import OpsComposer.Foundations.RowLocks

/-!
# What a log says about locks and snapshots

Invariants by which the log of a transaction answers for its state: what the
transaction has written was written by a statement of its log, a row that a logged
statement must have changed is held, and only a statement that may have to wait works
with a snapshot taken earlier.
-/

set_option autoImplicit false

namespace OpsComposer.Foundations

open RowStore

variable {σ κ ρ S ε α C : Type} [DecidableEq κ] [RowStore σ κ ρ]

/-- Whenever the statement returns these rows, it has written the key. -/
def Service.Locks (service : Service σ κ ρ S ε α C) (statement : S) (shown : List ρ) (k : κ) :
    Prop :=
  ∀ snapshot current writes,
    (service.meaning statement snapshot).perform service.clash snapshot current =
      some (shown, writes) → k ∈ touched σ writes

/-- A statement of this kind may make this write. -/
def Service.Makes (service : Service σ κ ρ S ε α C) (statement : S) (write : Write κ ρ) : Prop :=
  ∃ snapshot current shown writes,
    (service.meaning statement snapshot).perform service.clash snapshot current =
      some (shown, writes) ∧ write ∈ writes

namespace Db

variable {service : Service σ κ ρ S ε α C} {admits : C → Prop} {time : Nat}
  {db db' : Db σ κ ρ S ε α C}

/-- What a transaction has written was written by statements of its log. -/
def Written (service : Service σ κ ρ S ε α C) (db : Db σ κ ρ S ε α C) : Prop :=
  ∀ (id : Nat) (txn : Txn σ κ ρ S ε α C), db.txns[id]? = some txn → ∀ write ∈ txn.writes,
    ∃ statement rows seen, .ran statement rows seen ∈ txn.log ∧ service.Makes statement write

theorem Written.effect (written : Written service db)
    (effect : Effect service admits time db db') : Written service db' := by
  intro j t present write member
  cases effect with
  | begun _ =>
      rcases of_getElem?_append present with ⟨-, rfl⟩ | old
      · cases member
      · exact written j t old write member
  | @moved id txn txn' found moves =>
      rcases of_getElem?_set found present with ⟨rfl, rfl⟩ | ⟨-, old⟩
      · have before := written id txn found write
        cases moves with
        | clock _ _ =>
            obtain ⟨statement, rows, seen, ran, makes⟩ := before member
            exact ⟨statement, rows, seen, List.mem_append_left _ ran, makes⟩
        | snapshot _ _ _ | checked _ _ _ _ _ | aborted _ => exact before member
        | performed _ _ result =>
            rcases List.mem_append.mp member with earlier | now
            · obtain ⟨statement, rows, seen, ran, makes⟩ := before earlier
              exact ⟨statement, rows, seen, List.mem_append_left _ ran, makes⟩
            · exact ⟨_, _, _, List.mem_append_right _ (List.mem_singleton_self _),
                _, _, _, _, (of_performed result).2, now⟩
      · exact written j t old write member
  | @committed id txn _ found _ _ =>
      rcases of_getElem?_set found present with ⟨rfl, rfl⟩ | ⟨-, old⟩
      · exact written id txn found write member
      · exact written j t old write member

/-! ## Locks -/

/-- The rows that logged statements have written are held. -/
def Locking (service : Service σ κ ρ S ε α C) (db : Db σ κ ρ S ε α C) : Prop :=
  ∀ (id : Nat) (txn : Txn σ κ ρ S ε α C), db.txns[id]? = some txn →
    ∀ statement rows seen k, .ran statement rows seen ∈ txn.log →
      service.Locks statement rows k → k ∈ txn.holds

theorem Locking.effect (locking : Locking service db)
    (effect : Effect service admits time db db') : Locking service db' := by
  intro j t present statement rows seen k ran locks
  cases effect with
  | begun _ =>
      rcases of_getElem?_append present with ⟨-, rfl⟩ | old
      · cases ran
      · exact locking j t old statement rows seen k ran locks
  | @moved id txn txn' found moves =>
      rcases of_getElem?_set found present with ⟨rfl, rfl⟩ | ⟨-, old⟩
      · have before := locking id txn found statement rows seen k
        cases moves with
        | clock _ _ =>
            rcases List.mem_append.mp ran with earlier | now
            · exact before earlier locks
            · simp at now
        | snapshot _ _ _ | checked _ _ _ _ _ | aborted _ => exact before ran locks
        | performed _ _ result =>
            rw [holds_afterStatement]
            rcases List.mem_append.mp ran with earlier | now
            · exact .inl (before earlier locks)
            · obtain ⟨rfl, rfl, -⟩ : statement = _ ∧ rows = _ ∧ seen = _ := by simpa using now
              exact .inr (locks _ _ _ (of_performed result).2)
      · exact locking j t old statement rows seen k ran locks
  | @committed id txn _ found _ _ =>
      rcases of_getElem?_set found present with ⟨rfl, rfl⟩ | ⟨-, old⟩
      · exact locking id txn found statement rows seen k ran locks
      · exact locking j t old statement rows seen k ran locks

/-! ## Snapshots -/

/-- Only a statement that is no query may have taken its snapshot earlier. -/
def Waiting (service : Service σ κ ρ S ε α C) (db : Db σ κ ρ S ε α C) : Prop :=
  ∀ (id : Nat) (txn : Txn σ κ ρ S ε α C), db.txns[id]? = some txn → txn.snapshot ≠ none →
    ∃ statement view, txn.program.next? = some statement ∧
      (service.meaning statement view).isSelect = false

theorem Waiting.effect (waiting : Waiting service db)
    (effect : Effect service admits time db db') : Waiting service db' := by
  intro j t present taken
  cases effect with
  | begun _ =>
      rcases of_getElem?_append present with ⟨-, rfl⟩ | old
      · exact absurd rfl taken
      · exact waiting j t old taken
  | @moved id txn txn' found moves =>
      rcases of_getElem?_set found present with ⟨rfl, rfl⟩ | ⟨-, old⟩
      · cases moves with
        | clock _ stands =>
            obtain ⟨statement, view, next, -⟩ := waiting id txn found taken
            rw [stands] at next
            cases next
        | snapshot _ stands waits => exact ⟨_, _, by rw [stands]; rfl, waits⟩
        | performed _ _ _ => exact absurd rfl taken
        | checked _ _ _ _ _ | aborted _ => exact waiting id txn found taken
      · exact waiting j t old taken
  | @committed id txn _ found _ _ =>
      rcases of_getElem?_set found present with ⟨rfl, rfl⟩ | ⟨-, old⟩
      · exact waiting id txn found taken
      · exact waiting j t old taken

/-- A query sees the present state. -/
theorem snapshotFor_of_select (waiting : Waiting service db) {id : Nat} {txn : Txn σ κ ρ S ε α C}
    (found : db.txns[id]? = some txn) {statement : S} (next : txn.program.next? = some statement)
    (select : ∀ view, (service.meaning statement view).isSelect = true) :
    db.snapshotFor txn = ⟨db.state, db.history.length⟩ := by
  cases taken : txn.snapshot with
  | none => simp [snapshotFor, taken]
  | some snapshot =>
      obtain ⟨other, view, next', waits⟩ := waiting id txn found (by simp [taken])
      obtain rfl : statement = other := Option.some.inj (next.symm.trans next')
      rw [select view] at waits
      cases waits

end Db

end OpsComposer.Foundations
