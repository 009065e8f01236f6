import Mathlib.Data.List.Infix
import Mathlib.Data.List.TakeWhile

/-!
# Regular expressions by backtracking

A regular expression whose repetitions are of one character each.  `Regex.lengths`
lists the matches at the start of a text in the order in which a backtracking
matcher tries them; `Regex.Accepts` is the language.

* `mem_lengths` — a length is tried if and only if the language has that prefix;
* `Regex.Over` — every class of the expression is within a set of characters, and
  then so is every word (`Accepts.over`);
* `literal` — a word, up to a folding of its characters.
-/

set_option autoImplicit false

namespace OpsComposer.Foundations

/-- A pattern. -/
inductive Regex (α : Type) where
  | empty
  | one (p : α → Bool)
  | seq (first second : Regex α)
  | alt (first second : Regex α)
  /-- As many characters as there are, and then fewer. -/
  | many (p : α → Bool)
  /-- No character at first, and then more. -/
  | lazily (p : α → Bool)

namespace Regex

variable {α : Type}

/-! ## Matching -/

/-- The lengths of the matches, in the order in which they are tried. -/
def lengths : Regex α → List α → List Nat
  | .empty, _ => [0]
  | .one _, [] => []
  | .one p, c :: _ => if p c then [1] else []
  | .seq first second, s =>
      (first.lengths s).flatMap fun n => (second.lengths (s.drop n)).map (n + ·)
  | .alt first second, s => first.lengths s ++ second.lengths s
  | .many p, s => (List.range ((s.takeWhile p).length + 1)).reverse
  | .lazily p, s => List.range ((s.takeWhile p).length + 1)

/-- The words that a pattern is for. -/
def Accepts : Regex α → List α → Prop
  | .empty, w => w = []
  | .one p, w => ∃ c, p c = true ∧ w = [c]
  | .seq first second, w => ∃ u v, first.Accepts u ∧ second.Accepts v ∧ w = u ++ v
  | .alt first second, w => first.Accepts w ∨ second.Accepts w
  | .many p, w => ∀ c ∈ w, p c = true
  | .lazily p, w => ∀ c ∈ w, p c = true

/-- What a repetition can take. -/
theorem le_length_takeWhile_iff {p : α → Bool} {s : List α} {n : Nat} :
    n ≤ (s.takeWhile p).length ↔ ∃ w, w <+: s ∧ (∀ c ∈ w, p c = true) ∧ w.length = n := by
  constructor
  · intro short
    refine ⟨(s.takeWhile p).take n, ?_, ?_, ?_⟩
    · exact (List.take_prefix n _).trans (List.takeWhile_prefix p)
    · exact fun c member => List.mem_takeWhile_imp (List.mem_of_mem_take member)
    · rw [List.length_take]
      omega
  · rintro ⟨w, ⟨rest, rfl⟩, all, rfl⟩
    rw [List.takeWhile_append_of_pos all, List.length_append]
    omega

/-- **A length is tried if and only if the language has that prefix.** -/
theorem mem_lengths {r : Regex α} {s : List α} {n : Nat} :
    n ∈ r.lengths s ↔ ∃ w, w <+: s ∧ r.Accepts w ∧ w.length = n := by
  induction r generalizing s n with
  | empty =>
      rw [lengths, List.mem_singleton]
      constructor
      · rintro rfl
        exact ⟨[], List.nil_prefix, rfl, rfl⟩
      · rintro ⟨_, -, rfl, rfl⟩
        rfl
  | one p =>
      constructor
      · intro tried
        cases s with
        | nil => cases tried
        | cons c s =>
            unfold lengths at tried
            split at tried
            next holds =>
              rw [List.mem_singleton.mp tried]
              exact ⟨[c], ⟨s, rfl⟩, ⟨c, holds, rfl⟩, rfl⟩
            next => cases tried
      · rintro ⟨_, isPrefix, ⟨c, holds, rfl⟩, rfl⟩
        obtain ⟨rest, rfl⟩ := isPrefix
        simp [lengths, holds]
  | seq first second ih ih' =>
      simp only [lengths, List.mem_flatMap, List.mem_map, Accepts]
      constructor
      · rintro ⟨k, tried, m, tried', rfl⟩
        obtain ⟨u, ⟨rest, rfl⟩, accepted, rfl⟩ := ih.mp tried
        rw [List.drop_left] at tried'
        obtain ⟨v, isPrefix, accepted', rfl⟩ := ih'.mp tried'
        exact ⟨u ++ v, List.prefix_append_right_inj u |>.mpr isPrefix,
          ⟨u, v, accepted, accepted', rfl⟩, List.length_append⟩
      · rintro ⟨_, isPrefix, ⟨u, v, accepted, accepted', rfl⟩, rfl⟩
        obtain ⟨rest, rfl⟩ := isPrefix
        refine ⟨u.length, ih.mpr ⟨u, ?_, accepted, rfl⟩, v.length, ih'.mpr ⟨v, ?_, accepted', rfl⟩,
          List.length_append.symm⟩
        · exact ⟨v ++ rest, (List.append_assoc u v rest).symm⟩
        · rw [List.append_assoc, List.drop_left]
          exact List.prefix_append v rest
  | alt first second ih ih' =>
      simp only [lengths, List.mem_append, ih, ih', Accepts]
      constructor
      · rintro (⟨w, isPrefix, accepted, length⟩ | ⟨w, isPrefix, accepted, length⟩)
        · exact ⟨w, isPrefix, .inl accepted, length⟩
        · exact ⟨w, isPrefix, .inr accepted, length⟩
      · rintro ⟨w, isPrefix, accepted | accepted, length⟩
        · exact .inl ⟨w, isPrefix, accepted, length⟩
        · exact .inr ⟨w, isPrefix, accepted, length⟩
  | many p =>
      rw [lengths, List.mem_reverse, List.mem_range, Nat.lt_succ_iff]
      exact le_length_takeWhile_iff
  | lazily p =>
      rw [lengths, List.mem_range, Nat.lt_succ_iff]
      exact le_length_takeWhile_iff

/-! ## Classes -/

/-- Every class is within a set. -/
def Over (p : α → Prop) : Regex α → Prop
  | .empty => True
  | .one q => ∀ c, q c = true → p c
  | .seq first second => first.Over p ∧ second.Over p
  | .alt first second => first.Over p ∧ second.Over p
  | .many q => ∀ c, q c = true → p c
  | .lazily q => ∀ c, q c = true → p c

/-- The characters of a word are from the classes. -/
theorem Accepts.over {r : Regex α} {p : α → Prop} {w : List α} (accepted : r.Accepts w)
    (within : r.Over p) : ∀ c ∈ w, p c := by
  induction r generalizing w with
  | empty =>
      rw [show w = [] from accepted]
      exact fun c member => absurd member List.not_mem_nil
  | one q =>
      obtain ⟨c, holds, rfl⟩ := accepted
      exact List.forall_mem_singleton.mpr (within c holds)
  | seq first second ih ih' =>
      obtain ⟨u, v, left, right, rfl⟩ := accepted
      exact List.forall_mem_append.mpr ⟨ih left within.1, ih' right within.2⟩
  | alt first second ih ih' => exact accepted.elim (ih · within.1) (ih' · within.2)
  | many q | lazily q => exact fun c member => within c (accepted c member)

/-! ## Words -/

/-- A word, up to a folding. -/
def literal [BEq α] (fold : α → α) : List α → Regex α
  | [] => .empty
  | c :: w => .seq (.one fun d => fold d == c) (literal fold w)

theorem accepts_literal [BEq α] [LawfulBEq α] {fold : α → α} {w u : List α} :
    (literal fold w).Accepts u ↔ u.map fold = w := by
  induction w generalizing u with
  | nil => exact List.map_eq_nil_iff.symm
  | cons c w ih =>
      simp only [literal, Accepts, ih, beq_iff_eq]
      constructor
      · rintro ⟨_, v, ⟨d, same, rfl⟩, rest, rfl⟩
        rw [List.singleton_append, List.map_cons, same, rest]
      · intro folded
        obtain ⟨d, v, rfl, same, rest⟩ := List.map_eq_cons_iff.mp folded
        exact ⟨[d], v, ⟨d, same, rfl⟩, rest, rfl⟩

/-- `r?`. -/
def optional (r : Regex α) : Regex α := .alt r .empty

/-- `[…]+`. -/
def oneOrMore (p : α → Bool) : Regex α := .seq (.one p) (.many p)

theorem accepts_oneOrMore {p : α → Bool} {w : List α} :
    (oneOrMore p).Accepts w ↔ w ≠ [] ∧ ∀ c ∈ w, p c = true := by
  simp only [oneOrMore, Accepts]
  constructor
  · rintro ⟨_, v, ⟨c, holds, rfl⟩, rest, rfl⟩
    exact ⟨List.cons_ne_nil c v, List.forall_mem_cons.mpr ⟨holds, rest⟩⟩
  · rintro ⟨nonempty, all⟩
    obtain ⟨c, v, rfl⟩ := List.exists_cons_of_ne_nil nonempty
    obtain ⟨holds, rest⟩ := List.forall_mem_cons.mp all
    exact ⟨[c], v, ⟨c, holds, rfl⟩, rest, rfl⟩

end Regex

end OpsComposer.Foundations
