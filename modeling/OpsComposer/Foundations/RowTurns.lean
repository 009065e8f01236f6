import OpsComposer.Foundations.DbWorld

/-!
# What unfinished transactions have made of rows

Two kinds of invariants about what an unfinished transaction sees, next to what is committed.

* `Db.Turned` — under every key the transaction sees what is committed, or a row that it has
  turned the committed one into, which its call and its log account for;
* `Db.Recalled` — what a statement has returned still says something about a row.

Row locks carry both over the commits of other transactions: under a key that the transaction
holds, neither row changes; under any other key it sees the committed row.
-/

set_option autoImplicit false

namespace OpsComposer.Foundations

open RowStore

variable {σ κ ρ S ε α C : Type} [DecidableEq κ] [RowStore σ κ ρ]

namespace Db

variable {service : Service σ κ ρ S ε α C} {admits : C → Prop} {time : Nat}
  {db db' : Db σ κ ρ S ε α C}

/-- What the commit of one transaction does to another one, key by key: nothing, or the other
one has seen what was committed, and sees what is. -/
theorem key_of_commit (exclusive : Exclusive db) {id j : Nat} {txn other : Txn σ κ ρ S ε α C}
    (apart : id ≠ j) (found : db.txns[id]? = some txn) (live : txn.live = true)
    (isOther : db.txns[j]? = some other) (otherLive : other.live = true) (k : κ) :
    (lookup (txn.view db.state) k = lookup db.state k ∧
        lookup (other.view (txn.view db.state)) k = lookup (other.view db.state) k) ∨
      (lookup (other.view db.state) k = lookup db.state k ∧
        lookup (other.view (txn.view db.state)) k = lookup (txn.view db.state) k) := by
  rw [view_commit]
  by_cases held : k ∈ other.holds
  · have free := exclusive j id other txn (Ne.symm apart) isOther found otherLive live k held
    exact .inl ⟨view_of_not_held db.state free, if_pos held⟩
  · exact .inr ⟨view_of_not_held db.state held, if_neg held⟩

/-- **One step** commits nothing, or it is the commit of a transaction that is done. -/
theorem Effect.still_or_commit (effect : Effect service admits time db db') :
    (db'.history = db.history ∧ db'.state = db.state) ∨
      ∃ (id : Nat) (txn : Txn σ κ ρ S ε α C), db.txns[id]? = some txn ∧ txn.live = true ∧
        db'.txns[id]? = some { txn with status := .committed } ∧
          db'.history = db.history ++ [id] ∧ db'.state = txn.view db.state := by
  cases effect with
  | begun _ | moved _ _ => exact .inl ⟨rfl, rfl⟩
  | @committed id txn answer found stands ready =>
      refine .inr ⟨id, txn, found, live_of_ready ready, ?_, rfl, rfl⟩
      rw [getElem?_set_of_found found, if_pos rfl]

/-! ## Turned rows -/

/-- Unfinished transactions see the committed rows, or have turned them into what they see. -/
def Turned (Turn : C → List (Event S ρ) → κ → Option ρ → Option ρ → Prop)
    (db : Db σ κ ρ S ε α C) : Prop :=
  ∀ (id : Nat) (txn : Txn σ κ ρ S ε α C), db.txns[id]? = some txn → txn.live = true → ∀ k,
    lookup (txn.view db.state) k = lookup db.state k ∨
      Turn txn.call txn.log k (lookup db.state k) (lookup (txn.view db.state) k)

/-- **A turn** accounts for every statement that changes its row, and stays one. -/
structure Turns (service : Service σ κ ρ S ε α C)
    (Turn : C → List (Event S ρ) → κ → Option ρ → Option ρ → Prop) (db : Db σ κ ρ S ε α C) :
    Prop where
  longer : ∀ call log event k old? new?, Turn call log k old? new? →
    Turn call (log ++ [event]) k old? new?
  performed : ∀ (id : Nat) (txn : Txn σ κ ρ S ε α C) (statement : S)
    (next : List ρ → Program S ρ ε α) (shown : List ρ) (writes : List (Write κ ρ)),
    db.txns[id]? = some txn → txn.program = .run statement next →
      db.performed service id txn statement = some (some (shown, writes)) →
        ∀ k old? mid? new?, (mid? = old? ∨ Turn txn.call txn.log k old? mid?) →
          (∀ row, mid? = some row → key σ row = k) → (∀ row, new? = some row → key σ row = k) →
            Command.Changes (service.meaning statement (txn.view (db.snapshotFor txn).state))
              mid? new? →
              Turn txn.call (txn.log ++ [.ran statement shown (db.snapshotFor txn).seen]) k old? new?

section Turned

variable {Turn : C → List (Event S ρ) → κ → Option ρ → Option ρ → Prop}

/-- **One step.** -/
theorem Turned.effect (turned : Turned Turn db) (exclusive : Exclusive db)
    (turns : Turns service Turn db) (effect : Effect service admits time db db') :
    Turned Turn db' := by
  intro j t present live k
  cases effect with
  | begun _ =>
      rcases of_getElem?_append present with ⟨-, rfl⟩ | old
      · exact .inl rfl
      · exact turned j t old live k
  | @moved id txn txn' found moves =>
      rcases of_getElem?_set found present with ⟨rfl, rfl⟩ | ⟨-, old⟩
      · have before := turned id txn found moves.live k
        cases moves with
        | clock _ _ => exact before.imp_right (turns.longer _ _ _ _ _ _)
        | snapshot _ _ _ | checked _ _ _ _ _ => exact before
        | aborted _ => simp [Txn.live] at live
        | @performed statement next shown writes running stands result =>
            rcases performed_row result k with ⟨-, same⟩ | ⟨-, change⟩
            · refine before.imp same.trans fun turn => ?_
              have turn := turns.longer _ _ (.ran statement shown (db.snapshotFor txn).seen) _ _ _ turn
              rw [← same] at turn
              exact turn
            · exact .inr (turns.performed id txn statement next shown writes found stands result k
                _ _ _ before (fun _ => key_of_lookup) (fun _ => key_of_lookup) change)
      · exact turned j t old live k
  | @committed id txn _ found _ ready =>
      rcases of_getElem?_set found present with ⟨-, rfl⟩ | ⟨apart, old⟩
      · simp [Txn.live] at live
      · show lookup (t.view (txn.view db.state)) k = lookup (txn.view db.state) k ∨
          Turn t.call t.log k (lookup (txn.view db.state) k) (lookup (t.view (txn.view db.state)) k)
        rcases key_of_commit exclusive apart found (live_of_ready ready) old live k with
          ⟨state, view⟩ | ⟨-, view⟩
        · rw [state, view]
          exact turned j t old live k
        · exact .inl view

/-- **One step** leaves a committed row, or a transaction commits that has turned it. -/
theorem Turned.state (turned : Turned Turn db) (effect : Effect service admits time db db')
    (k : κ) :
    lookup db'.state k = lookup db.state k ∨
      ∃ (id : Nat) (txn : Txn σ κ ρ S ε α C) (answer : α), db.txns[id]? = some txn ∧
        txn.program = .done answer ∧ txn.live = true ∧ db'.history = db.history ++ [id] ∧
          db'.state = txn.view db.state ∧
            Turn txn.call txn.log k (lookup db.state k) (lookup db'.state k) := by
  cases effect with
  | begun _ | moved _ _ => exact .inl rfl
  | @committed id txn answer found stands ready =>
      have live := live_of_ready ready
      exact (turned id txn found live k).imp_right fun turn =>
        ⟨id, txn, answer, found, stands, live, rfl, rfl, turn⟩

end Turned

/-! ## Recalled rows -/

/-- Of every row that a statement has returned to an unfinished transaction, what it says about
some key still holds of the committed row and of the one that the transaction sees. -/
def Recalled (Fact : S → ρ → κ → Option ρ → Option ρ → Prop) (db : Db σ κ ρ S ε α C) : Prop :=
  ∀ (id : Nat) (txn : Txn σ κ ρ S ε α C), db.txns[id]? = some txn → txn.live = true →
    ∀ statement shown seen, .ran statement shown seen ∈ txn.log → ∀ row ∈ shown,
      ∃ k, Fact statement row k (lookup db.state k) (lookup (txn.view db.state) k)

/-- **A fact** holds when a statement has returned its row, and stays. -/
structure Recalls (service : Service σ κ ρ S ε α C) (R : Option ρ → Option ρ → Prop)
    (Fact : S → ρ → κ → Option ρ → Option ρ → Prop) (db : Db σ κ ρ S ε α C) : Prop where
  fresh : ∀ (id : Nat) (txn : Txn σ κ ρ S ε α C) (statement : S)
    (next : List ρ → Program S ρ ε α) (shown : List ρ) (writes : List (Write κ ρ)),
    db.txns[id]? = some txn → txn.program = .run statement next →
      db.performed service id txn statement = some (some (shown, writes)) → ∀ row ∈ shown,
        ∃ k, Fact statement row k (lookup db.state k)
          (lookup (applyAll db.state (txn.writes ++ writes)) k)
  own : ∀ statement row k committed? old? other snapshot new?,
    Fact statement row k committed? old? →
      Command.Changes (service.meaning other snapshot) old? new? → Fact statement row k committed? new?
  others : ∀ statement row k old? new?, Fact statement row k old? old? → R old? new? →
    Fact statement row k new? new?

theorem Recalled.effect {Fact : S → ρ → κ → Option ρ → Option ρ → Prop}
    {R : Option ρ → Option ρ → Prop} (recalled : Recalled Fact db) (exclusive : Exclusive db)
    (evolves : Evolves R db) (recalls : Recalls service R Fact db)
    (effect : Effect service admits time db db') : Recalled Fact db' := by
  intro j t present live statement shown seen ran row member
  cases effect with
  | begun _ =>
      rcases of_getElem?_append present with ⟨-, rfl⟩ | old
      · cases ran
      · exact recalled j t old live statement shown seen ran row member
  | @moved id txn txn' found moves =>
      rcases of_getElem?_set found present with ⟨rfl, rfl⟩ | ⟨-, old⟩
      · have before := recalled id txn found moves.live statement shown seen
        cases moves with
        | clock _ _ =>
            rcases List.mem_append.mp ran with earlier | last
            · exact before earlier row member
            · cases List.mem_singleton.mp last
        | snapshot _ _ _ | checked _ _ _ _ _ => exact before ran row member
        | aborted _ => simp [Txn.live] at live
        | @performed other next rows writes running stands result =>
            rcases List.mem_append.mp ran with earlier | last
            · obtain ⟨k, fact⟩ := before earlier row member
              refine ⟨k, ?_⟩
              rcases performed_row result k with ⟨-, same⟩ | ⟨-, change⟩
              · exact same.symm ▸ fact
              · exact recalls.own _ _ _ _ _ _ _ _ fact change
            · obtain ⟨rfl, rfl, -⟩ := Event.ran.inj (List.mem_singleton.mp last)
              exact recalls.fresh id txn _ next _ writes found stands result row member
      · exact recalled j t old live statement shown seen ran row member
  | @committed id txn _ found _ ready =>
      rcases of_getElem?_set found present with ⟨-, rfl⟩ | ⟨apart, old⟩
      · simp [Txn.live] at live
      · obtain ⟨k, fact⟩ := recalled j t old live statement shown seen ran row member
        refine ⟨k, ?_⟩
        show Fact statement row k (lookup (txn.view db.state) k)
          (lookup (t.view (txn.view db.state)) k)
        rcases key_of_commit exclusive apart found (live_of_ready ready) old live k with
          ⟨state, view⟩ | ⟨same, view⟩
        · rw [state, view]
          exact fact
        · rw [view]
          rw [same] at fact
          exact recalls.others _ _ _ _ _ fact (evolves id txn found (live_of_ready ready) k)

end Db

end OpsComposer.Foundations
