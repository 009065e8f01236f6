import OpsComposer.Foundations.RowLocks

/-!
# Unique indexes

An insert is refused by a row of the committed state that a unique index does not let it
stand beside, and it waits for such a row of an unfinished transaction.  When no other
statement makes rows clash, no two rows of a committed state ever do, nor two rows that an
unfinished transaction sees (`Db.Unclashed`).
-/

set_option autoImplicit false

namespace OpsComposer.Foundations

open RowStore

variable {σ κ ρ S ε α C : Type} [DecidableEq κ] [RowStore σ κ ρ]

/-- No two rows of a state clash. -/
def Unclashing (clash : ρ → ρ → Bool) (state : σ) : Prop :=
  ∀ k k' row row', k ≠ k' → lookup state k = some row → lookup state k' = some row' →
    clash row row' = false

/-- A changed row clashes only with rows that the old one clashed with. -/
def Service.KeepsApart (service : Service σ κ ρ S ε α C) : Prop :=
  ∀ statement snapshot old row,
    Command.Changes (service.meaning statement snapshot) (some old) (some row) →
      ∀ other, service.clash other row = true → service.clash other old = true

namespace Command

variable {clash : ρ → ρ → Bool} {snapshot current : σ} {command : Command σ κ ρ}
  {shown : List ρ} {writes : List (Write κ ρ)} {k : κ} {row : ρ}

/-- **A row under a new key** is the row of an insert that no other row has refused. -/
theorem perform_added (done : command.perform clash snapshot current = some (shown, writes))
    (member : k ∈ touched σ writes) (free : lookup current k = none)
    (after : lookup (applyAll current writes) k = some row) :
    command.row? = some row ∧ collides clash current row = false := by
  have change := (perform_changes done member).2
  rw [free, after] at change
  obtain rfl := key_of_lookup after
  cases collision : collides clash current row with
  | false =>
      refine ⟨?_, rfl⟩
      cases change with
      | insert | inserted | added | addedIf => rfl
  | true =>
      cases change with
      | insert =>
          rcases (perform_insert done).2 with ⟨-, -, -, rfl⟩ | ⟨alone, -, -⟩
          · cases member
          · exact absurd (collision.symm.trans alone) (by simp)
      | inserted | added | addedIf => simp [perform, free, collision] at done

end Command

namespace Db

variable {service : Service σ κ ρ S ε α C} {admits : C → Prop} {time : Nat}
  {db db' : Db σ κ ρ S ε α C}

/-- No rows clash that are committed, that an unfinished transaction sees, or that two
unfinished transactions hold. -/
structure Unclashed (clash : ρ → ρ → Bool) (db : Db σ κ ρ S ε α C) : Prop where
  committed : Unclashing clash db.state
  seen : ∀ (id : Nat) (txn : Txn σ κ ρ S ε α C), db.txns[id]? = some txn → txn.live = true →
    Unclashing clash (txn.view db.state)
  between : ∀ (i j : Nat) (t t' : Txn σ κ ρ S ε α C), i ≠ j → db.txns[i]? = some t →
    db.txns[j]? = some t' → t.live = true → t'.live = true → ∀ k ∈ t.holds, ∀ k' ∈ t'.holds,
      ∀ row row', lookup (t.view db.state) k = some row → lookup (t'.view db.state) k' = some row' →
        clash row row' = false

section Performed

variable {id : Nat} {txn : Txn σ κ ρ S ε α C} {statement : S} {shown : List ρ}
  {writes : List (Write κ ρ)}

/-- What a statement leaves under a key: a row that clashes with no more rows than the one
before, or a new row that nobody has refused. -/
theorem row_of_performed
    (result : db.performed service id txn statement = some (some (shown, writes)))
    (keeps : service.KeepsApart) {k : κ} {row : ρ}
    (after : lookup (applyAll db.state (txn.writes ++ writes)) k = some row) :
    (∃ old, lookup (txn.view db.state) k = some old ∧
        ∀ other, service.clash other row = true → service.clash other old = true) ∨
      (k ∈ touched σ writes ∧
        (service.meaning statement (txn.view (db.snapshotFor txn).state)).row? = some row ∧
          Command.collides service.clash (txn.view db.state) row = false) := by
  rcases performed_row result k with ⟨-, same⟩ | ⟨member, change⟩
  · exact .inl ⟨row, same.symm.trans after, fun _ clashes => clashes⟩
  · cases before : lookup (txn.view db.state) k with
    | some old =>
        rw [before, after] at change
        exact .inl ⟨old, rfl, keeps _ _ old row change⟩
    | none =>
        rw [applyAll_append] at after
        exact .inr ⟨member, Command.perform_added (of_performed result).2 member before after⟩

/-- A row that refuses no other refuses none under another key. -/
theorem not_clash_of_collides {clash : ρ → ρ → Bool} {current : σ} {row other : ρ} {k : κ}
    (alone : Command.collides clash current row = false) (found : lookup current k = some other)
    (apart : key σ row ≠ k) : clash other row = false := by
  have all := List.any_eq_false.mp alone other (mem_of_lookup found)
  have named : key σ other ≠ key σ row := by
    rw [key_of_lookup found]
    exact Ne.symm apart
  simpa [named] using all

/-- **A statement** keeps the rows apart that its transaction sees. -/
theorem seen_performed (unclashing : Unclashing service.clash (txn.view db.state))
    (result : db.performed service id txn statement = some (some (shown, writes)))
    (keeps : service.KeepsApart)
    (symmetric : ∀ row other, service.clash row other = service.clash other row) :
    Unclashing service.clash (applyAll db.state (txn.writes ++ writes)) := by
  intro k k' row row' apart after after'
  by_contra clashes
  have clashes : service.clash row row' = true := by simpa using clashes
  have isAt := key_of_lookup after
  have isAt' := key_of_lookup after'
  rcases row_of_performed result keeps after with ⟨old, found, fewer⟩ | ⟨-, isRow, alone⟩
  · have clashes : service.clash row' old = true := fewer row' (symmetric row row' ▸ clashes)
    rcases row_of_performed result keeps after' with ⟨old', found', fewer'⟩ | ⟨-, -, alone⟩
    · have both := fewer' old (symmetric row' old ▸ clashes)
      rw [unclashing k k' old old' apart found found'] at both
      cases both
    · have free := not_clash_of_collides alone found (isAt' ▸ Ne.symm apart)
      rw [symmetric, free] at clashes
      cases clashes
  · rcases row_of_performed result keeps after' with ⟨old', found', fewer'⟩ | ⟨-, isRow', -⟩
    · have both := fewer' row clashes
      have free := not_clash_of_collides alone found' (isAt ▸ apart)
      rw [symmetric, free] at both
      cases both
    · obtain rfl := Option.some.inj (isRow.symm.trans isRow')
      exact apart (isAt.symm.trans isAt')

/-- **A statement** waits for the rows that others hold and its own would clash with. -/
theorem Unclashed.between_performed (unclashed : Unclashed service.clash db)
    (exclusive : Exclusive db) (found : db.txns[id]? = some txn) (live : txn.live = true)
    (result : db.performed service id txn statement = some (some (shown, writes)))
    (keeps : service.KeepsApart)
    (symmetric : ∀ row other, service.clash row other = service.clash other row)
    {j : Nat} {other : Txn σ κ ρ S ε α C} (apart : id ≠ j) (isOther : db.txns[j]? = some other)
    (otherLive : other.live = true) {k k' : κ} {row row' : ρ}
    (held : k ∈ touched σ (txn.writes ++ writes)) (held' : k' ∈ other.holds)
    (after : lookup (applyAll db.state (txn.writes ++ writes)) k = some row)
    (after' : lookup (other.view db.state) k' = some row') : service.clash row row' = false := by
  have among : other ∈ db.others id := mem_others.mpr ⟨j, Ne.symm apart, isOther, otherLive⟩
  have free : k ∉ other.holds := by
    rcases List.mem_append.mp (touched_append (σ := σ) txn.writes writes ▸ held) with old | new
    · exact exclusive id j txn other apart found isOther live otherLive k old
    · exact performed_free result new other among
  by_contra clashes
  have clashes : service.clash row' row = true := by
    rw [symmetric]
    simpa using clashes
  rcases row_of_performed result keeps after with ⟨old, before, fewer⟩ | ⟨-, isRow, -⟩
  · have clashes := fewer row' clashes
    have none : service.clash row' old = false := by
      by_cases own : k ∈ txn.holds
      · rw [symmetric]
        exact unclashed.between id j txn other apart found isOther live otherLive k own k' held'
          old row' before after'
      · -- the row is committed, and the other transaction sees it
        have committed : lookup (other.view db.state) k = some old :=
          (view_of_not_held db.state free).trans
            ((view_of_not_held db.state own).symm.trans before)
        exact unclashed.seen j other isOther otherLive k' k row' old
          (fun same => free (same ▸ held')) after' committed
    rw [none] at clashes
    cases clashes
  · rcases lookup_applyAll_cases after' with ⟨outside, -⟩ | ⟨-, put⟩
    · exact outside held'
    · have waits := (of_performed result).1 other among
      simp only [waitsFor, isRow, Option.any_some, Bool.or_eq_false_iff, List.any_eq_false] at waits
      have none := waits.2.1 (.put row') put
      simp [left, clashes] at none

end Performed

/-- A transaction that neither writes nor ends leaves all views as they are. -/
theorem Unclashed.same_writes {clash : ρ → ρ → Bool} {id : Nat} {txn txn' : Txn σ κ ρ S ε α C}
    (unclashed : Unclashed clash db) (found : db.txns[id]? = some txn) (live : txn.live = true)
    (writes : txn'.writes = txn.writes) : Unclashed clash (db.replace id txn') := by
  have view : txn'.view db.state = txn.view db.state := by rw [Txn.view, Txn.view, writes]
  have holds : txn'.holds = txn.holds := by rw [Txn.holds, Txn.holds, writes]
  have before : ∀ {j : Nat} {t : Txn σ κ ρ S ε α C}, (db.txns.set id txn')[j]? = some t →
      t.live = true → ∃ old, db.txns[j]? = some old ∧ old.live = true ∧
        t.view db.state = old.view db.state ∧ t.holds = old.holds := by
    intro j t present tLive
    rcases of_getElem?_set found present with ⟨rfl, rfl⟩ | ⟨-, old⟩
    · exact ⟨txn, found, live, view, holds⟩
    · exact ⟨t, old, tLive, rfl, rfl⟩
  refine ⟨unclashed.committed, ?_, ?_⟩
  · intro j t present tLive
    obtain ⟨old, found', oldLive, sees, -⟩ := before present tLive
    show Unclashing clash (t.view db.state)
    rw [sees]
    exact unclashed.seen j old found' oldLive
  · intro i j t t' apart present present' tLive tLive' k held k' held' row row' shown shown'
    obtain ⟨old, isOld, oldLive, sees, had⟩ := before present tLive
    obtain ⟨old', isOld', oldLive', sees', had'⟩ := before present' tLive'
    change lookup (t.view db.state) k = some row at shown
    change lookup (t'.view db.state) k' = some row' at shown'
    rw [had] at held
    rw [had'] at held'
    rw [sees] at shown
    rw [sees'] at shown'
    exact unclashed.between i j old old' apart isOld isOld' oldLive oldLive' k held k' held' row
      row' shown shown'

/-- **One step** keeps rows apart. -/
theorem Unclashed.effect (unclashed : Unclashed service.clash db) (exclusive : Exclusive db)
    (keeps : service.KeepsApart)
    (symmetric : ∀ row other, service.clash row other = service.clash other row)
    (effect : Effect service admits time db db') : Unclashed service.clash db' := by
  cases effect with
  | begun _ =>
      refine ⟨unclashed.committed, ?_, ?_⟩
      · intro j t present live
        rcases of_getElem?_append present with ⟨-, rfl⟩ | old
        · exact unclashed.committed
        · exact unclashed.seen j t old live
      · intro i j t t' apart present present' live live' k held k' held'
        rcases of_getElem?_append present with ⟨-, rfl⟩ | old
        · cases held
        · rcases of_getElem?_append present' with ⟨-, rfl⟩ | old'
          · cases held'
          · exact unclashed.between i j t t' apart old old' live live' k held k' held'
  | @moved id txn txn' found moves =>
      cases moves with
      | clock _ _ | snapshot _ _ _ | checked _ _ _ _ _ =>
          exact unclashed.same_writes found (by simp_all [Txn.live]) rfl
      | aborted live => exact unclashed.same_writes found live rfl
      | @performed statement next rows writes running stands result =>
          have live : txn.live = true := by simp [Txn.live, running]
          have sees := seen_performed (unclashed.seen id txn found live) result keeps symmetric
          refine ⟨unclashed.committed, ?_, ?_⟩
          · intro j t present tLive
            rcases of_getElem?_set found present with ⟨rfl, rfl⟩ | ⟨-, old⟩
            · exact sees
            · exact unclashed.seen j t old tLive
          · intro i j t t' apart present present' tLive tLive' k held k' held' row row' shown shown'
            rcases of_getElem?_set found present with ⟨rfl, rfl⟩ | ⟨-, old⟩
            · rcases of_getElem?_set found present' with ⟨same, -⟩ | ⟨-, old'⟩
              · exact absurd same apart
              · exact unclashed.between_performed exclusive found live result keeps symmetric apart
                  old' tLive' held held' shown shown'
            · rcases of_getElem?_set found present' with ⟨rfl, rfl⟩ | ⟨-, old'⟩
              · rw [symmetric]
                exact unclashed.between_performed exclusive found live result keeps symmetric
                  (Ne.symm apart) old tLive held' held shown' shown
              · exact unclashed.between i j t t' apart old old' tLive tLive' k held k' held' row row'
                  shown shown'
  | @committed id txn answer found stands ready =>
      have live := live_of_ready ready
      refine ⟨unclashed.seen id txn found live, ?_, ?_⟩
      · intro j t present tLive k k' row row' different shown shown'
        rcases of_getElem?_set found present with ⟨-, rfl⟩ | ⟨apart, old⟩
        · simp [Txn.live] at tLive
        · -- a row that is held is seen as before, any other one as the commit leaves it
          have mixed : ∀ {l l' : κ} {r r' : ρ}, l ≠ l' → l ∈ t.holds → l' ∉ t.holds →
              lookup (t.view db.state) l = some r → lookup (txn.view db.state) l' = some r' →
                service.clash r r' = false := by
            intro l l' r r' different own free isSeen isLeft
            by_cases held : l' ∈ txn.holds
            · exact unclashed.between j id t txn (Ne.symm apart) old found tLive live l own l' held r
                r' isSeen isLeft
            · have committed : lookup (t.view db.state) l' = some r' :=
                (view_of_not_held db.state free).trans
                  ((view_of_not_held db.state held).symm.trans isLeft)
              exact unclashed.seen j t old tLive l l' r r' different isSeen committed
          change lookup (t.view (txn.view db.state)) k = some row at shown
          change lookup (t.view (txn.view db.state)) k' = some row' at shown'
          rw [view_commit] at shown shown'
          by_cases own : k ∈ t.holds
          · rw [if_pos own] at shown
            by_cases own' : k' ∈ t.holds
            · rw [if_pos own'] at shown'
              exact unclashed.seen j t old tLive k k' row row' different shown shown'
            · rw [if_neg own'] at shown'
              exact mixed different own own' shown shown'
          · rw [if_neg own] at shown
            by_cases own' : k' ∈ t.holds
            · rw [if_pos own'] at shown'
              rw [symmetric]
              exact mixed (Ne.symm different) own' own shown' shown
            · rw [if_neg own'] at shown'
              exact unclashed.seen id txn found live k k' row row' different shown shown'
      · intro i j t t' apart present present' tLive tLive' k held k' held' row row' shown shown'
        rcases of_getElem?_set found present with ⟨-, rfl⟩ | ⟨-, old⟩
        · simp [Txn.live] at tLive
        · rcases of_getElem?_set found present' with ⟨-, rfl⟩ | ⟨-, old'⟩
          · simp [Txn.live] at tLive'
          · change lookup (t.view (txn.view db.state)) k = some row at shown
            change lookup (t'.view (txn.view db.state)) k' = some row' at shown'
            rw [view_commit, if_pos held] at shown
            rw [view_commit, if_pos held'] at shown'
            exact unclashed.between i j t t' apart old old' tLive tLive' k held k' held' row row'
              shown shown'

end Db

end OpsComposer.Foundations
