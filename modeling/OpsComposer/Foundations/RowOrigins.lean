import OpsComposer.Foundations.Chronicle

/-!
# Where rows come from

Every row of a committed state stems from a statement of a committed transaction:
one that added it, or put its present content, with other statements of committed
transactions after it.  What "stems from" means is a parameter, a relation between
statements and rows that every change of a row either establishes or keeps.

* `Db.Sourced` — of the present state and of what unfinished transactions see;
* `Db.SourcedAt` — of all committed states of the run.
-/

set_option autoImplicit false

namespace OpsComposer.Foundations

open RowStore

variable {σ κ ρ S ε α C : Type} [DecidableEq κ] [RowStore σ κ ρ]

/-- A transaction has executed a statement that the row stems from. -/
def Txn.Sources (Source : S → ρ → Prop) (txn : Txn σ κ ρ S ε α C) (row : ρ) : Prop :=
  ∃ statement rows seen, .ran statement rows seen ∈ txn.log ∧ Source statement row

/-- A source is established or kept by every change of a row. -/
def Service.Keeps (service : Service σ κ ρ S ε α C) (Source : S → ρ → Prop) : Prop :=
  ∀ statement snapshot before row,
    Command.Changes (service.meaning statement snapshot) before (some row) →
      Source statement row ∨
        ∃ old, before = some old ∧ ∀ other, Source other old → Source other row

namespace Db

/-- A committed transaction has executed a statement that the row stems from. -/
def Stems (Source : S → ρ → Prop) (db : Db σ κ ρ S ε α C) (row : ρ) : Prop :=
  ∃ (id : Nat) (txn : Txn σ κ ρ S ε α C), db.txns[id]? = some txn ∧ txn.status = .committed ∧
    txn.Sources Source row

/-- Every row that is committed, or that an unfinished transaction sees, stems from a
statement of a committed transaction, or of the one that sees it. -/
structure Sourced (Source : S → ρ → Prop) (db : Db σ κ ρ S ε α C) : Prop where
  committed : ∀ k row, lookup db.state k = some row → db.Stems Source row
  seen : ∀ (id : Nat) (txn : Txn σ κ ρ S ε α C), db.txns[id]? = some txn → txn.live = true →
    ∀ k row, lookup (txn.view db.state) k = some row →
      db.Stems Source row ∨ txn.Sources Source row

section Effect

variable {service : Service σ κ ρ S ε α C} {admits : C → Prop} {time : Nat}
  {db db' : Db σ κ ρ S ε α C} {Source : S → ρ → Prop}

/-- What a transaction has executed stays in its log. -/
theorem Moves.sources {id : Nat} {txn txn' : Txn σ κ ρ S ε α C}
    (moves : Moves service time db id txn txn') {row : ρ} (sources : txn.Sources Source row) :
    txn'.Sources Source row := by
  obtain ⟨statement, rows, seen, member, source⟩ := sources
  cases moves with
  | clock _ _ | performed _ _ _ =>
      exact ⟨statement, rows, seen, List.mem_append_left _ member, source⟩
  | snapshot _ _ _ | checked _ _ _ _ _ | aborted _ => exact ⟨statement, rows, seen, member, source⟩

/-- A committed transaction stays committed, with its log. -/
theorem Stems.effect (effect : Effect service admits time db db') {row : ρ}
    (stems : db.Stems Source row) : db'.Stems Source row := by
  obtain ⟨j, t, present, done, sources⟩ := stems
  exact ⟨j, t, effect.committed_stays present done, done, sources⟩

/-- **Provenance.** -/
theorem Sourced.effect (sourced : Sourced Source db) (keeps : service.Keeps Source)
    (effect : Effect service admits time db db') : Sourced Source db' := by
  have stays : ∀ {row : ρ}, db.Stems Source row → db'.Stems Source row := fun stems =>
    stems.effect effect
  cases effect with
  | begun _ =>
      refine ⟨fun k row shown => stays (sourced.committed k row shown), ?_⟩
      intro j t present live k row shown
      rcases of_getElem?_append present with ⟨-, rfl⟩ | old
      · exact .inl (stays (sourced.committed k row shown))
      · exact (sourced.seen j t old live k row shown).imp_left stays
  | @moved id txn txn' found moves =>
      refine ⟨fun k row shown => stays (sourced.committed k row shown), ?_⟩
      intro j t present live k row shown
      rcases of_getElem?_set found present with ⟨rfl, rfl⟩ | ⟨-, old⟩
      · have before : ∀ row, lookup (txn.view db.state) k = some row →
            (db.replace id t).Stems Source row ∨ t.Sources Source row := fun row visible =>
          (sourced.seen id txn found moves.live k row visible).imp stays moves.sources
        cases moves with
        | clock _ _ | snapshot _ _ _ | checked _ _ _ _ _ | aborted _ => exact before row shown
        | @performed statement next rows writes running stands result =>
            rcases performed_row result k with ⟨-, same⟩ | ⟨-, change⟩
            · exact before row (same.symm.trans shown)
            · have executed : .ran statement rows (db.snapshotFor txn).seen ∈
                  (db.afterStatement service txn statement next rows writes).log := by
                simp [afterStatement]
              have after : lookup (applyAll db.state (txn.writes ++ writes)) k = some row := shown
              rw [after] at change
              rcases keeps _ _ _ _ change with source | ⟨old, visible, kept⟩
              · exact .inr ⟨statement, rows, _, executed, source⟩
              · rcases before old visible with ⟨i, s, isThere, done, other, r, n, member, source⟩ |
                  ⟨other, r, n, member, source⟩
                · exact .inl ⟨i, s, isThere, done, other, r, n, member, kept other source⟩
                · exact .inr ⟨other, r, n, member, kept other source⟩
      · exact (sourced.seen j t old live k row shown).imp_left stays
  | @committed id txn answer found stands ready =>
      have txnLive := live_of_ready ready
      have state : ∀ k row, lookup (txn.view db.state) k = some row →
          Stems Source { state := txn.view db.state
                         txns := db.txns.set id { txn with status := .committed }
                         history := db.history ++ [id] } row := by
        intro k row shown
        rcases sourced.seen id txn found txnLive k row shown with stems | sources
        · exact stays stems
        · exact ⟨id, { txn with status := .committed },
            by simp only [getElem?_set_of_found found, if_true], rfl, sources⟩
      refine ⟨state, ?_⟩
      intro j t present live k row shown
      rcases of_getElem?_set found present with ⟨-, rfl⟩ | ⟨-, old⟩
      · simp [Txn.live] at live
      · rw [view_commit] at shown
        split at shown
        · exact (sourced.seen j t old live k row shown).imp_left stays
        · exact .inl (state k row shown)

/-- Every row of every committed state stems from a statement of a committed transaction. -/
def SourcedAt (Source : S → ρ → Prop) (start : σ) (db : Db σ κ ρ S ε α C) : Prop :=
  ∀ n ≤ db.history.length, ∀ k row, lookup (db.stateAt start n) k = some row → db.Stems Source row

theorem SourcedAt.effect {start : σ} (past : SourcedAt Source start db) (recorded : Recorded db)
    (effect : Effect service admits time db db') (sourced : Sourced Source db')
    (present : db'.state = db'.stateAt start db'.history.length) : SourcedAt Source start db' := by
  intro n bound k row shown
  rcases Nat.lt_or_ge db.history.length n with above | old
  · -- only the present comes after the past
    have last : n = db'.history.length := by
      cases effect with
      | begun _ | moved _ _ => exact absurd bound (Nat.not_le_of_gt above)
      | committed _ _ _ =>
          simp only [List.length_append, List.length_singleton] at bound ⊢
          omega
    rw [last, ← present] at shown
    exact sourced.committed k row shown
  · rw [effect.stateAt start recorded old] at shown
    exact (past n old k row shown).effect effect

end Effect

end Db

end OpsComposer.Foundations
