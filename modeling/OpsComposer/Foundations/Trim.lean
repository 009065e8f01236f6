import Mathlib.Data.List.DropRight

/-!
# Trimming

A list without what it begins and ends with of some kind, and the white space that
is meant where texts are trimmed.

* `trim_suffix_iff` — what is left is the end of the list exactly where nothing is
  taken off there, or nothing is left at all.
-/

set_option autoImplicit false

namespace OpsComposer.Foundations

section Trim

variable {α : Type} {p : α → Bool} {l : List α}

/-- A list without the elements of some kind that it begins and ends with. -/
def trim (p : α → Bool) (l : List α) : List α := (l.dropWhile p).rdropWhile p

/-- Nothing is left of a list of that kind throughout. -/
theorem trim_eq_nil_iff : trim p l = [] ↔ ∀ x ∈ l, p x = true := by
  rw [trim, List.rdropWhile_eq_nil_iff]
  constructor
  · intro all
    by_contra some
    have nonempty : l.dropWhile p ≠ [] := fun none => some (List.dropWhile_eq_nil_iff.mp none)
    have first := List.head_dropWhile_not p nonempty
    rw [all _ (List.head_mem nonempty)] at first
    cases first
  · exact fun all x member => all x ((List.dropWhile_suffix p).subset member)

/-- A trimmed list does not end with an element of that kind. -/
theorem not_of_mem_getLast?_trim {x : α} (last : x ∈ (trim p l).getLast?) : p x = false := by
  obtain ⟨nonempty, rfl⟩ := List.mem_getLast?_eq_getLast last
  exact Bool.not_eq_true _ ▸ List.rdropWhile_last_not p (l.dropWhile p) nonempty

/-- Nothing is taken off an end that is not of that kind. -/
theorem trim_of_last (last : ∀ x ∈ l.getLast?, p x = false) : trim p l = l.dropWhile p := by
  rw [trim, List.rdropWhile_eq_self_iff]
  intro nonempty
  have same : (l.dropWhile p).getLast nonempty ∈ l.getLast? := by
    rw [(List.dropWhile_suffix p).getLast nonempty]
    exact List.getLast_mem_getLast? _
  simp [last _ same]

/-- Where what is left is the end of another list, that does not end with such an element,
unless nothing is left. -/
theorem last_of_trim_suffix {other : List α} (isSuffix : trim p l <:+ other) :
    (∀ x ∈ l, p x = true) ∨ ∀ x ∈ other.getLast?, p x = false := by
  by_cases empty : trim p l = []
  · exact .inl (trim_eq_nil_iff.mp empty)
  · refine .inr fun x last => ?_
    obtain ⟨nonempty, rfl⟩ := List.mem_getLast?_eq_getLast last
    rw [← isSuffix.getLast empty]
    exact not_of_mem_getLast?_trim (List.getLast_mem_getLast? empty)

/-- **What is left is the end of the list** exactly where nothing is taken off there, or
nothing is left. -/
theorem trim_suffix_iff : trim p l <:+ l ↔
    (∀ x ∈ l, p x = true) ∨ ∀ x ∈ l.getLast?, p x = false := by
  constructor
  · exact last_of_trim_suffix
  · rintro (all | last)
    · rw [trim_eq_nil_iff.mpr all]
      exact List.nil_suffix
    · rw [trim_of_last last]
      exact List.dropWhile_suffix p

end Trim

/-- A character with the property `White_Space`. -/
def isWhiteSpace (c : Nat) : Bool :=
  (9 ≤ c && c ≤ 13) || (8192 ≤ c && c ≤ 8202) ||
    [32, 133, 160, 5760, 8232, 8233, 8239, 8287, 12288].contains c

end OpsComposer.Foundations
