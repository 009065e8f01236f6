import Mathlib.Data.List.Infix

/-!
# Replacing a word by a marked one

`s.replace(old, new)` scans from the left and goes on behind what it has found.
Where `new` stands between two marks, a word without marks cannot straddle what
was put in: it lies in `new` or was there before (`Replaces.occurs_before`).  In
particular the word that was replaced is gone (`Replaces.replaced_gone`), and a word
that is gone does not come back.

* `replaceFrom`, `replace` — the scan;
* `Replaces` — what the scan does, a step at a time;
* `Marked` — a word between two marks.
-/

set_option autoImplicit false

namespace OpsComposer.Foundations.Replacing

variable {α : Type}

section Scan

variable [DecidableEq α]

/-- The scan, with the number of items that still belong to what was found last. -/
def replaceFrom (old new : List α) : Nat → List α → List α
  | _, [] => []
  | skip + 1, _ :: s => replaceFrom old new skip s
  | 0, c :: s =>
      if old <+: c :: s then new ++ replaceFrom old new (old.length - 1) s
      else c :: replaceFrom old new 0 s

/-- `s.replace(old, new)` for an `old` that is not empty. -/
def replace (old new s : List α) : List α := replaceFrom old new 0 s

example : replace [1, 1] [7] [1, 1, 1, 2, 1, 1] = [7, 1, 2, 7] := by decide

end Scan

/-- One text is the other one with `new` for some of its `old`s, and at no place
that was kept does an `old` begin. -/
inductive Replaces (old new : List α) : List α → List α → Prop
  | nil : Replaces old new [] []
  | keep {c : α} {s r : List α} (other : ¬ old <+: c :: s) (rest : Replaces old new s r) :
      Replaces old new (c :: s) (c :: r)
  | swap {s r : List α} (rest : Replaces old new s r) : Replaces old new (old ++ s) (new ++ r)

theorem replaceFrom_replaces [DecidableEq α] {old : List α} (some : old ≠ []) (new s : List α)
    (skip : Nat) : Replaces old new (s.drop skip) (replaceFrom old new skip s) := by
  induction s generalizing skip with
  | nil =>
      rw [List.drop_nil]
      exact .nil
  | cons c s ih =>
      cases skip with
      | succ skip => exact ih skip
      | zero =>
          rw [replaceFrom, List.drop_zero]
          by_cases found : old <+: c :: s
          · rw [if_pos found]
            obtain ⟨rest, split⟩ := found
            have behind : s.drop (old.length - 1) = rest := by
              have long : 0 < old.length := List.length_pos_iff.mpr some
              have same : (c :: s).drop old.length = rest := by rw [← split, List.drop_left]
              obtain ⟨length, one⟩ := Nat.exists_eq_succ_of_ne_zero long.ne'
              rw [one] at same ⊢
              exact same
            rw [← split]
            exact .swap (behind ▸ ih (old.length - 1))
          · rw [if_neg found]
            exact .keep found (ih 0)

theorem replace_replaces [DecidableEq α] {old : List α} (some : old ≠ []) (new s : List α) :
    Replaces old new s (replace old new s) :=
  replaceFrom_replaces some new s 0

/-- Where the word does not occur, nothing is replaced. -/
theorem replace_of_absent [DecidableEq α] {old s : List α} (new : List α)
    (absent : ¬ old <:+: s) : replace old new s = s := by
  induction s with
  | nil => rfl
  | cons c s ih =>
      have begins : ¬ old <+: c :: s := fun begins => absent begins.isInfix
      have later : ¬ old <:+: s := fun inside => absent (List.infix_cons inside)
      rw [replace, replaceFrom, if_neg begins]
      exact congrArg (c :: ·) (ih later)

/-! ## Words without marks -/

theorem eq_nil_of_prefix_cons {word rest : List α} {c : α} (avoids : c ∉ word)
    (begins : word <+: c :: rest) : word = [] := by
  cases word with
  | nil => rfl
  | cons d word =>
      obtain ⟨rfl, -⟩ := List.cons_prefix_cons.mp begins
      exact absurd (List.mem_cons_self ..) avoids

/-- A word that avoids an item lies on one side of it. -/
theorem infix_of_append_cons {word left right : List α} {c : α} (avoids : c ∉ word)
    (inside : word <:+: left ++ c :: right) : word <:+: left ∨ word <:+: right := by
  rcases List.infix_append_iff.mp inside with before | behind | ⟨first, last, rfl, ends, begins⟩
  · exact .inl before
  · rcases List.infix_cons_iff.mp behind with begins | later
    · rw [eq_nil_of_prefix_cons avoids begins]
      exact .inl List.nil_infix
    · exact .inr later
  · have none : last = [] :=
      eq_nil_of_prefix_cons (fun member => avoids (List.mem_append_right _ member)) begins
    rw [none, List.append_nil]
    exact .inl ends.isInfix

/-- A word that stands between two marks. -/
def Marked (mark : α → Prop) (body new : List α) : Prop :=
  ∃ first last, mark first ∧ mark last ∧ new = first :: (body ++ [last])

section Words

variable {mark : α → Prop} {body new old word s r : List α}

/-- A word without marks is in the marked word or behind it. -/
theorem infix_of_marked_append (marked : Marked mark body new) (plain : ∀ c ∈ word, ¬ mark c)
    (inside : word <:+: new ++ r) : word <:+: body ∨ word <:+: r := by
  obtain ⟨first, last, isMark, isMark', rfl⟩ := marked
  rw [List.cons_append, List.append_assoc, List.singleton_append] at inside
  have avoids : first ∉ word := fun member => plain first member isMark
  have avoids' : last ∉ word := fun member => plain last member isMark'
  have split : word <:+: [] ++ first :: (body ++ last :: r) := inside
  rcases infix_of_append_cons avoids split with none | later
  · rw [List.infix_nil.mp none]
    exact .inl List.nil_infix
  · exact infix_of_append_cons avoids' later

/-- A word without marks with which the result begins stood there before. -/
theorem Replaces.begins_before (step : Replaces old new s r) (marked : Marked mark body new)
    (plain : ∀ c ∈ word, ¬ mark c) (begins : word <+: r) : word <+: s := by
  induction step generalizing word with
  | nil => exact begins
  | @keep c s r other rest ih =>
      cases word with
      | nil => exact List.nil_prefix
      | cons d word =>
          obtain ⟨same, tails⟩ := List.cons_prefix_cons.mp begins
          rw [List.forall_mem_cons] at plain
          exact List.cons_prefix_cons.mpr ⟨same, ih plain.2 tails⟩
  | swap rest ih =>
      obtain ⟨first, last, isMark, -, rfl⟩ := marked
      rw [List.cons_append] at begins
      rw [eq_nil_of_prefix_cons (fun member => plain first member isMark) begins]
      exact List.nil_prefix

/-- **No word without marks arises**, except for those that were put in. -/
theorem Replaces.occurs_before (step : Replaces old new s r) (marked : Marked mark body new)
    (plain : ∀ c ∈ word, ¬ mark c) (inside : word <:+: r) : word <:+: body ∨ word <:+: s := by
  induction step with
  | nil => exact .inr inside
  | @keep c s r other rest ih =>
      rcases List.infix_cons_iff.mp inside with begins | later
      · have before := (Replaces.keep other rest).begins_before marked plain begins
        exact .inr before.isInfix
      · rcases ih later with new | old
        · exact .inl new
        · exact .inr (List.infix_cons old)
  | swap rest ih =>
      rcases infix_of_marked_append marked plain inside with new | later
      · exact .inl new
      · rcases ih later with new | old
        · exact .inl new
        · exact .inr (List.infix_append_of_infix_right old)

/-- **The word that was replaced is gone.** -/
theorem Replaces.replaced_gone (step : Replaces old new s r) (marked : Marked mark body new)
    (some : old ≠ []) (plain : ∀ c ∈ old, ¬ mark c) (foreign : ¬ old <:+: body) : ¬ old <:+: r := by
  induction step with
  | nil =>
      intro inside
      exact some (List.infix_nil.mp inside)
  | @keep c s r other rest ih =>
      intro inside
      rcases List.infix_cons_iff.mp inside with begins | later
      · exact other ((Replaces.keep other rest).begins_before marked plain begins)
      · exact ih later
  | swap rest ih =>
      intro inside
      rcases infix_of_marked_append marked plain inside with new | later
      · exact foreign new
      · exact ih later

end Words

end OpsComposer.Foundations.Replacing
