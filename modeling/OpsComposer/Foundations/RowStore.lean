import OpsComposer.Foundations.Table

/-!
# Row stores and uncommitted writes

A row store is a database state seen through its rows: whatever tables they lie
in, every row has a key and no two rows have one key.

A transaction does not change the state before it commits.  It collects writes,
row versions and deletions, and reads the state with its writes applied.  Two
lemmas say all that is needed about this view: under a key that the writes touch
it does not depend on the state, and under any other key it is the state.
-/

set_option autoImplicit false

namespace OpsComposer.Foundations

/-- A database state whose rows are found by key. -/
class RowStore (σ : Type) (κ ρ : outParam Type) [DecidableEq κ] where
  key : ρ → κ
  rows : σ → List ρ
  lookup : σ → κ → Option ρ
  put : σ → ρ → σ
  erase : σ → κ → σ
  lookup_eq_some (s : σ) (k : κ) (r : ρ) : lookup s k = some r ↔ r ∈ rows s ∧ key r = k
  lookup_put (s : σ) (r : ρ) (k : κ) :
    lookup (put s r) k = if key r = k then some r else lookup s k
  lookup_erase (s : σ) (k k' : κ) :
    lookup (erase s k) k' = if k = k' then none else lookup s k'

/-- One uncommitted change: a row version, or a deletion. -/
inductive Write (κ ρ : Type) where
  | put (row : ρ)
  | erase (key : κ)

namespace RowStore

variable {σ κ ρ : Type} [DecidableEq κ] [RowStore σ κ ρ]

variable {r : ρ} {s : σ}

theorem key_of_lookup {k : κ} (found : lookup s k = some r) : key σ r = k :=
  ((lookup_eq_some s k r).mp found).2

theorem mem_of_lookup {k : κ} (found : lookup s k = some r) : r ∈ rows s :=
  ((lookup_eq_some s k r).mp found).1

theorem lookup_of_mem (member : r ∈ rows s) : lookup s (key σ r) = some r :=
  (lookup_eq_some s _ r).mpr ⟨member, rfl⟩

theorem mem_rows : r ∈ rows s ↔ lookup s (key σ r) = some r :=
  ⟨lookup_of_mem, mem_of_lookup⟩

variable (σ) in
/-- The key that a write is about. -/
def written : Write κ ρ → κ
  | .put row => key σ row
  | .erase k => k

/-- The row that a write leaves under its key. -/
def left : Write κ ρ → Option ρ
  | .put row => some row
  | .erase _ => none

variable (σ) in
/-- The keys that the writes are about. -/
def touched (writes : List (Write κ ρ)) : List κ := writes.map (written σ)

/-- The rows after a write. -/
def apply (s : σ) : Write κ ρ → σ
  | .put row => put s row
  | .erase k => erase s k

/-- A state with writes applied, first write first. -/
def applyAll (s : σ) (writes : List (Write κ ρ)) : σ := writes.foldl apply s

/-! ## What the view shows -/

theorem lookup_apply (s : σ) (w : Write κ ρ) (k : κ) :
    lookup (apply s w) k = if written σ w = k then left w else lookup s k := by
  cases w with
  | put row => exact lookup_put s row k
  | erase k' => exact lookup_erase s k' k

@[simp] theorem applyAll_nil (s : σ) : applyAll s ([] : List (Write κ ρ)) = s := rfl

@[simp] theorem applyAll_cons (s : σ) (w : Write κ ρ) (ws : List (Write κ ρ)) :
    applyAll s (w :: ws) = applyAll (apply s w) ws := rfl

@[simp] theorem applyAll_append (s : σ) (ws ws' : List (Write κ ρ)) :
    applyAll s (ws ++ ws') = applyAll (applyAll s ws) ws' :=
  List.foldl_append

@[simp] theorem touched_nil : touched σ ([] : List (Write κ ρ)) = [] := rfl

@[simp] theorem touched_append (ws ws' : List (Write κ ρ)) :
    touched σ (ws ++ ws') = touched σ ws ++ touched σ ws' :=
  List.map_append

variable {ws : List (Write κ ρ)} {k : κ}

/-- **Frame.** A key that no write is about keeps its row. -/
theorem lookup_applyAll_of_not_mem (s : σ)
    (apart : k ∉ touched σ ws) : lookup (applyAll s ws) k = lookup s k := by
  induction ws generalizing s with
  | nil => rfl
  | cons w ws ih =>
      obtain ⟨here, later⟩ := not_or.mp (mt List.mem_cons.mpr apart)
      rw [applyAll_cons, ih (apply s w) later, lookup_apply, if_neg (Ne.symm here)]

/-- **Overwriting.** Under a key that some write is about, the view does not
depend on the state. -/
theorem lookup_applyAll_of_mem (s s' : σ)
    (member : k ∈ touched σ ws) : lookup (applyAll s ws) k = lookup (applyAll s' ws) k := by
  induction ws generalizing s s' with
  | nil => cases member
  | cons w ws ih =>
      by_cases later : k ∈ touched σ ws
      · exact ih (apply s w) (apply s' w) later
      · obtain rfl : k = written σ w := (List.mem_cons.mp member).resolve_right later
        simp only [applyAll_cons, lookup_applyAll_of_not_mem _ later, lookup_apply, if_true]

/-- States that agree under a key show the same row there after the same writes. -/
theorem lookup_applyAll_congr {s s' : σ} (ws : List (Write κ ρ)) (same : lookup s k = lookup s' k) :
    lookup (applyAll s ws) k = lookup (applyAll s' ws) k := by
  by_cases member : k ∈ touched σ ws
  · exact lookup_applyAll_of_mem s s' member
  · rw [lookup_applyAll_of_not_mem s member, lookup_applyAll_of_not_mem s' member, same]

/-- A view shows a row of the state, or one that a write has put. -/
theorem lookup_applyAll_cases {s : σ} {r : ρ} (found : lookup (applyAll s ws) k = some r) :
    (k ∉ touched σ ws ∧ lookup s k = some r) ∨ (k ∈ touched σ ws ∧ .put r ∈ ws) := by
  induction ws generalizing s with
  | nil => exact .inl ⟨List.not_mem_nil, found⟩
  | cons w ws ih =>
      rcases ih found with ⟨later, inner⟩ | ⟨later, put⟩
      · rw [lookup_apply] at inner
        by_cases here : written σ w = k
        · rw [if_pos here] at inner
          refine .inr ⟨List.mem_cons.mpr (.inl here.symm), ?_⟩
          cases w with
          | put row =>
              obtain rfl : row = r := Option.some.inj inner
              exact List.mem_cons_self ..
          | erase k' => cases inner
        · rw [if_neg here] at inner
          exact .inl ⟨mt List.mem_cons.mp (not_or.mpr ⟨Ne.symm here, later⟩), inner⟩
      · exact .inr ⟨List.mem_cons_of_mem _ later, List.mem_cons_of_mem _ put⟩

end RowStore

/-! ## The rows of one table -/

/-- The rows of one table among all rows of a store. -/
structure RowKind (ρ τ : Type) where
  wrap : τ → ρ
  unwrap : ρ → Option τ
  unwrap_eq_some : ∀ r t, unwrap r = some t ↔ r = wrap t := by intro r t; cases r <;> simp

namespace RowKind

variable {ρ τ : Type} (kind : RowKind ρ τ)

@[simp] theorem unwrap_wrap (t : τ) : kind.unwrap (kind.wrap t) = some t :=
  (kind.unwrap_eq_some _ t).mpr rfl

theorem wrap_injective {t t' : τ} (same : kind.wrap t = kind.wrap t') : t = t' := by
  have both := kind.unwrap_wrap t
  rw [same, kind.unwrap_wrap] at both
  exact (Option.some.inj both).symm

/-- A condition on the rows of the table. -/
def meets (condition : τ → Bool) (row : ρ) : Bool := (kind.unwrap row).any condition

/-- A rewriting of the rows of the table. -/
def map (f : τ → τ) (row : ρ) : ρ := ((kind.unwrap row).map fun t => kind.wrap (f t)).getD row

@[simp] theorem map_wrap (f : τ → τ) (t : τ) : kind.map f (kind.wrap t) = kind.wrap (f t) := by
  simp [map]

theorem meets_iff {condition : τ → Bool} {row : ρ} :
    kind.meets condition row = true ↔ ∃ t, row = kind.wrap t ∧ condition t = true := by
  cases shown : kind.unwrap row with
  | none =>
      have other : ∀ t, row ≠ kind.wrap t := by
        rintro t rfl
        simp at shown
      simp [meets, shown, other]
  | some t =>
      obtain rfl := (kind.unwrap_eq_some row t).mp shown
      constructor
      · intro holds
        exact ⟨t, rfl, by simpa [meets] using holds⟩
      · rintro ⟨t', same, holds⟩
        obtain rfl := kind.wrap_injective same
        simpa [meets] using holds

/-- What `map` leaves in place of a row. -/
theorem map_cases (f : τ → τ) (row : ρ) :
    kind.map f row = row ∨ ∃ t, row = kind.wrap t ∧ kind.map f row = kind.wrap (f t) := by
  cases shown : kind.unwrap row with
  | none => exact .inl (by simp [map, shown])
  | some t =>
      obtain rfl := (kind.unwrap_eq_some row t).mp shown
      exact .inr ⟨t, rfl, kind.map_wrap f t⟩

/-- A rewriting that keeps the keys of the table keeps all keys. -/
theorem map_keeps {κ : Type} {key : ρ → κ} {f : τ → τ}
    (keeps : ∀ t, key (kind.wrap (f t)) = key (kind.wrap t)) (row : ρ) :
    key (kind.map f row) = key row := by
  rcases kind.map_cases f row with same | ⟨t, rfl, mapped⟩
  · rw [same]
  · rw [mapped, keeps]

end RowKind

/-! ## A table as a store -/

/-- One keyed table is a row store. -/
instance tableStore {κ ρ : Type} [DecidableEq κ] {key : ρ → κ} : RowStore (Table key) κ ρ where
  key := key
  rows := Table.rows
  lookup := Table.lookup
  put := Table.put
  erase t k := t.delete fun r => key r = k
  lookup_eq_some _ _ _ := Table.lookup_eq_some_iff
  lookup_put := Table.lookup_put
  lookup_erase := Table.lookup_delete_at

end OpsComposer.Foundations
