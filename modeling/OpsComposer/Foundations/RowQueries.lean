import OpsComposer.Foundations.RowLocks

/-!
# Statements about one row

The row of a table under a key, and what a statement does whose condition names that key:
it finds the row when the row has met the condition in the snapshot and still does, and it
finds nothing else.
-/

set_option autoImplicit false

namespace OpsComposer.Foundations

open RowStore

namespace RowKind

variable {κ ρ τ : Type} [DecidableEq κ] {key : ρ → κ} (kind : RowKind ρ τ)

/-- The row of the table under a key. -/
def at? (store : Table key) (k : κ) : Option τ := (store.lookup k).bind kind.unwrap

section Rows

variable {kind} {store store' : Table key} {k : κ} {row : τ}

theorem at?_eq_some : kind.at? store k = some row ↔
    RowStore.lookup store k = some (kind.wrap row) := by
  rw [at?, Option.bind_eq_some_iff]
  constructor
  · rintro ⟨other, found, shown⟩
    obtain rfl := (kind.unwrap_eq_some other row).mp shown
    exact found
  · intro found
    exact ⟨_, found, kind.unwrap_wrap row⟩

theorem at?_congr (same : RowStore.lookup store k = RowStore.lookup store' k) :
    kind.at? store k = kind.at? store' k :=
  congrArg (Option.bind · kind.unwrap) same

/-- **Frame.** -/
theorem at?_frame {writes : List (Write κ ρ)} (free : k ∉ touched (Table key) writes) :
    kind.at? (applyAll store writes) k = kind.at? store k :=
  at?_congr (lookup_applyAll_of_not_mem store free)

/-- A row that is put last is the one that is seen. -/
theorem at?_put (before : List (Write κ ρ)) (same : key (kind.wrap row) = k) :
    kind.at? (applyAll store (before ++ [.put (kind.wrap row)])) k = some row := by
  refine at?_eq_some.mpr ?_
  rw [applyAll_append, applyAll_cons, applyAll_nil, lookup_apply]
  exact if_pos same

/-- A row under another key changes nothing. -/
theorem at?_put_other {before : List (Write κ ρ)} {other : ρ} (apart : key other ≠ k) :
    kind.at? (applyAll store (before ++ [.put other])) k = kind.at? (applyAll store before) k := by
  refine at?_congr ?_
  rw [applyAll_append, applyAll_cons, applyAll_nil, lookup_apply]
  exact if_neg apart

end Rows

section One

variable {kind} {snapshot current : Table key} {condition : τ → Bool} {k : κ}

/-- A statement that looks for one row finds it when it meets the condition in the snapshot
and still does. -/
theorem found_one (only : ∀ row, condition row = true → key (kind.wrap row) = k) :
    (∃ old new : τ, kind.at? snapshot k = some old ∧ condition old = true ∧
        kind.at? current k = some new ∧ condition new = true ∧
        Command.found snapshot current (kind.meets condition) = [kind.wrap new]) ∨
      (Command.found snapshot current (kind.meets condition) = [] ∧
        ∀ old new : τ, kind.at? snapshot k = some old → condition old = true →
          kind.at? current k = some new → condition new = false) := by
  have shape : ∀ row ∈ Command.found snapshot current (kind.meets condition),
      ∃ old new : τ, row = kind.wrap new ∧ kind.at? snapshot k = some old ∧
        condition old = true ∧ kind.at? current k = some new ∧ condition new = true := by
    intro row member
    obtain ⟨isThere, meets, before, shown, met⟩ := Command.mem_found.mp member
    obtain ⟨new, rfl, holds⟩ := kind.meets_iff.mp meets
    obtain ⟨old, rfl, held⟩ := kind.meets_iff.mp met
    have same := only new holds
    refine ⟨old, new, rfl, at?_eq_some.mpr ?_, held, at?_eq_some.mpr ?_, holds⟩
    · exact same ▸ shown
    · exact same ▸ RowStore.lookup_of_mem isThere
  have nodup : (Command.found snapshot current (kind.meets condition)).Nodup :=
    current.nodup_rows.filter _
  cases shown : Command.found snapshot current (kind.meets condition) with
  | nil =>
      refine .inr ⟨rfl, fun old new isOld held isNew => ?_⟩
      by_contra holds
      rw [Bool.not_eq_false] at holds
      have before := at?_eq_some.mp isOld
      have now := at?_eq_some.mp isNew
      have same : k = RowStore.key (Table key) (kind.wrap new) := (RowStore.key_of_lookup now).symm
      have member : kind.wrap new ∈ Command.found snapshot current (kind.meets condition) := by
        refine Command.mem_found.mpr ⟨RowStore.mem_of_lookup now, ?_, kind.wrap old, ?_, ?_⟩
        · exact kind.meets_iff.mpr ⟨new, rfl, holds⟩
        · exact same ▸ before
        · exact kind.meets_iff.mpr ⟨old, rfl, held⟩
      rw [shown] at member
      cases member
  | cons row rest =>
      obtain ⟨old, new, rfl, isOld, held, isNew, holds⟩ :=
        shape row (shown ▸ List.mem_cons_self ..)
      refine .inl ⟨old, new, isOld, held, isNew, holds, ?_⟩
      cases rest with
      | nil => rfl
      | cons other rest =>
          obtain ⟨_, new', rfl, -, -, isNew', -⟩ :=
            shape other (shown ▸ List.mem_cons_of_mem _ (List.mem_cons_self ..))
          obtain rfl : new' = new := Option.some.inj (isNew'.symm.trans isNew)
          rw [shown] at nodup
          exact absurd (List.mem_cons_self ..) (List.nodup_cons.mp nodup).1

variable {clash : ρ → ρ → Bool} {shown : List ρ} {writes : List (Write κ ρ)}

/-- An update of one row, or a query that locks it, with whatever columns it returns. -/
theorem perform_one {f : τ → τ} {g : ρ → ρ} {keeps : ∀ row, key (g row) = key row}
    {watched : Bool} {returning : ρ → List ρ}
    (maps : ∀ row, g (kind.wrap row) = kind.wrap (f row))
    (only : ∀ row, condition row = true → key (kind.wrap row) = k)
    (done : (Command.update (kind.meets condition) g keeps watched returning :
      Command (Table key) κ ρ).perform clash snapshot current = some (shown, writes)) :
    (∃ old new : τ, kind.at? snapshot k = some old ∧ condition old = true ∧
        kind.at? current k = some new ∧ condition new = true ∧
        shown = returning (kind.wrap (f new)) ∧ writes = [.put (kind.wrap (f new))]) ∨
      (shown = [] ∧ writes = [] ∧
        ∀ old new : τ, kind.at? snapshot k = some old → condition old = true →
          kind.at? current k = some new → condition new = false) := by
  obtain ⟨rfl, rfl⟩ := Command.perform_update done
  rcases found_one only with ⟨old, new, isOld, held, isNew, holds, isFound⟩ | ⟨nothing, none⟩
  · refine .inl ⟨old, new, isOld, held, isNew, holds, ?_, ?_⟩
    · simp [isFound, maps]
    · simp [isFound, maps]
  · refine .inr ⟨?_, ?_, none⟩
    · simp [nothing]
    · simp [nothing]

end One

end RowKind

/-! ## The rows that an update returns -/

namespace RowKind

section Updated

variable {σ κ ρ τ : Type} [DecidableEq κ] [RowStore σ κ ρ] {kind : RowKind ρ τ}
  {clash : ρ → ρ → Bool} {snapshot current : σ} {shown : List ρ} {writes : List (Write κ ρ)}
  {condition : τ → Bool} {f : τ → τ} {g : ρ → ρ} {keeps : ∀ row, key σ (g row) = key σ row}

/-- They are new versions of rows that have met the condition in the snapshot and still do. -/
theorem mem_updated (maps : ∀ t, g (kind.wrap t) = kind.wrap (f t))
    (done : (Command.set (kind.meets condition) g keeps).perform clash snapshot current =
      some (shown, writes)) {row : ρ} :
    row ∈ shown ↔ ∃ old, lookup current (key σ row) = some (kind.wrap old) ∧ condition old = true ∧
      (∃ seen, lookup snapshot (key σ row) = some (kind.wrap seen) ∧ condition seen = true) ∧
        row = kind.wrap (f old) := by
  rw [(Command.perform_set done).1, List.mem_map]
  constructor
  · rintro ⟨before, isFound, rfl⟩
    obtain ⟨isThere, meets, seen, isSeen, met⟩ := Command.mem_found.mp isFound
    obtain ⟨old, rfl, holds⟩ := kind.meets_iff.mp meets
    obtain ⟨seen, rfl, held⟩ := kind.meets_iff.mp met
    rw [keeps]
    exact ⟨old, lookup_of_mem isThere, holds, ⟨seen, isSeen, held⟩, maps old⟩
  · rintro ⟨old, found, holds, ⟨seen, isSeen, held⟩, isRow⟩
    refine ⟨kind.wrap old, Command.mem_found.mpr ⟨mem_of_lookup found, ?_, kind.wrap seen, ?_, ?_⟩,
      (maps old).trans isRow.symm⟩
    · exact kind.meets_iff.mpr ⟨old, rfl, holds⟩
    · rw [key_of_lookup found]
      exact isSeen
    · exact kind.meets_iff.mpr ⟨seen, rfl, held⟩

/-- What an update has returned is what is there after it. -/
theorem lookup_updated (maps : ∀ t, g (kind.wrap t) = kind.wrap (f t))
    (done : (Command.set (kind.meets condition) g keeps).perform clash snapshot current =
      some (shown, writes)) {row : ρ} (member : row ∈ shown) (state : σ) :
    lookup (applyAll state (shown.map .put)) (key σ row) = some row := by
  refine lookup_applyAll_uniform state (mem_touched.mpr ⟨.put row, ?_, rfl⟩) ?_
  · exact List.mem_map_of_mem member
  · intro write isWrite same
    obtain ⟨other, also, rfl⟩ := List.mem_map.mp isWrite
    obtain ⟨old, found, -, -, isRow⟩ := (mem_updated maps done).mp member
    obtain ⟨old', found', -, -, isOther⟩ := (mem_updated maps done).mp also
    have same : key σ other = key σ row := same
    rw [same] at found'
    obtain rfl := kind.wrap_injective (Option.some.inj (found'.symm.trans found))
    exact congrArg some (isOther.trans isRow.symm)

end Updated

end RowKind

end OpsComposer.Foundations
