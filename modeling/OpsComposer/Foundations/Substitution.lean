import OpsComposer.Foundations.Regex

/-!
# Substitution of what a pattern finds

`pattern.sub(new, text)` goes through a text from the left and puts something else
in the place of what it finds, and goes on behind it.  A `Finder` says what is found
at a position, by the character before it and the text from there on.

* `sub` — the scan, and `Substitutes`, what it does step by step;
* `Clear` — the finder finds nothing in a text; then the scan leaves it alone
  (`Clear.sub`);
* `Rule` — a pattern that ends in `[…]+`.  What one rule puts is clear of another
  one where it `Spares` it (`Spares.clear`), and a rule that `Settles` finds the
  second time what it put the first time (`Settles.subFrom`).
-/

set_option autoImplicit false

namespace OpsComposer.Foundations

/-- How many characters are found at a position, and what is put in their place. -/
abbrev Finder (α : Type) := Option α → List α → Option (Nat × List α)

namespace Finder

variable {α : Type} {find other : Finder α} {prev : Option α} {c : α} {s r found : List α}

/-- The scan, with the number of characters that still belong to what was found last. -/
def subFrom (find : Finder α) : Nat → Option α → List α → List α
  | _, _, [] => []
  | skip + 1, _, c :: s => subFrom find skip (some c) s
  | 0, prev, c :: s =>
      match find prev (c :: s) with
      | some (more + 1, new) => new ++ subFrom find more (some c) s
      | _ => c :: subFrom find 0 (some c) s

/-- `pattern.sub(new, s)`. -/
def sub (find : Finder α) (s : List α) : List α := subFrom find 0 none s

/-- What is found is there, and is not nothing. -/
def Sound (find : Finder α) : Prop :=
  ∀ prev s more, find prev s = some more → 0 < more.1 ∧ more.1 ≤ s.length

/-- One text is the other one after a scan, of which it is known what holds at every
character that was kept. -/
inductive Substitutes (find : Finder α) (Kept : Option α → List α → Prop) :
    Option α → List α → List α → Prop
  | nil {prev : Option α} : Substitutes find Kept prev [] []
  | keep {prev : Option α} {c : α} {s r : List α} (kept : Kept prev (c :: s))
      (rest : Substitutes find Kept (some c) s r) : Substitutes find Kept prev (c :: s) (c :: r)
  | swap {prev : Option α} {found new s r : List α} (nonempty : found ≠ [])
      (isFound : find prev (found ++ s) = some (found.length, new))
      (rest : Substitutes find Kept found.getLast? s r) :
      Substitutes find Kept prev (found ++ s) (new ++ r)

/-- The character before a position, where some characters have been passed. -/
def before (prev : Option α) (passed : List α) : Option α := passed.getLast?.or prev

@[simp] theorem before_nil (prev : Option α) : before prev [] = prev := rfl

theorem before_cons (prev : Option α) (c : α) (passed : List α) :
    before prev (c :: passed) = before (some c) passed := by
  cases passed with
  | nil => rfl
  | cons d passed => simp [before, List.getLast?_cons]

theorem before_of_ne_nil (prev : Option α) (nonempty : found ≠ []) :
    before prev found = found.getLast? := by
  rw [before, List.getLast?_eq_some_getLast nonempty]
  rfl

/-- **The scan substitutes**, and keeps only characters at which nothing is found. -/
theorem subFrom_substitutes (sound : Sound find) (skip : Nat) (prev : Option α) (s : List α)
    (within : skip ≤ s.length) :
    Substitutes find (fun prev s => find prev s = none) (before prev (s.take skip)) (s.drop skip)
      (subFrom find skip prev s) := by
  induction s generalizing skip prev with
  | nil =>
      rw [List.drop_nil]
      exact .nil
  | cons c s ih =>
      cases skip with
      | succ skip =>
          rw [List.take_succ_cons, before_cons]
          exact ih skip (some c) (Nat.le_of_succ_le_succ within)
      | zero =>
          rw [subFrom, List.take_zero, before_nil, List.drop_zero]
          cases isFound : find prev (c :: s) with
          | none => exact .keep isFound (by simpa using ih 0 (some c) (Nat.zero_le _))
          | some more =>
              obtain ⟨count, new⟩ := more
              obtain ⟨positive, fits⟩ := sound _ _ _ isFound
              cases count with
              | zero => cases positive
              | succ more =>
                  have fits : more ≤ s.length := Nat.le_of_succ_le_succ fits
                  have split : c :: s = (c :: s.take more) ++ s.drop more := by simp
                  have length : (c :: s.take more).length = more + 1 := by simp [fits]
                  have rest := ih more (some c) fits
                  rw [← before_cons prev, before_of_ne_nil prev (List.cons_ne_nil _ _)] at rest
                  dsimp only
                  rw [split] at isFound ⊢
                  exact .swap (List.cons_ne_nil _ _) (length ▸ isFound) rest

theorem sub_substitutes (sound : Sound find) (s : List α) :
    Substitutes find (fun prev s => find prev s = none) none s (sub find s) := by
  have scan := subFrom_substitutes sound 0 none s (Nat.zero_le _)
  rwa [List.take_zero, before_nil, List.drop_zero] at scan

theorem subFrom_append (passed : List α) (prev : Option α) :
    subFrom find passed.length prev (passed ++ s) = subFrom find 0 (before prev passed) s := by
  induction passed generalizing prev with
  | nil => rfl
  | cons c passed ih =>
      rw [before_cons, ← ih (some c)]
      rfl

/-- What is replaced by itself stays. -/
theorem subFrom_of_found (isFound : find prev (found ++ s) = some (found.length, found))
    (rest : ∀ {prev}, subFrom find 0 prev s = s) :
    subFrom find 0 prev (found ++ s) = found ++ s := by
  cases found with
  | nil => exact rest
  | cons c found =>
      rw [List.cons_append, subFrom]
      rw [List.cons_append, List.length_cons] at isFound
      rw [isFound]
      exact congrArg (c :: found ++ ·) ((subFrom_append found (some c)).trans rest)

/-! ## Clear texts -/

/-- Nothing is found anywhere. -/
def Clear (find : Finder α) : Option α → List α → Prop
  | _, [] => True
  | prev, c :: s => find prev (c :: s) = none ∧ Clear find (some c) s

theorem Clear.subFrom (clear : Clear find prev s) : subFrom find 0 prev s = s := by
  induction s generalizing prev with
  | nil => rfl
  | cons c s ih =>
      rw [Finder.subFrom, clear.1]
      exact congrArg (c :: ·) (ih clear.2)

/-- **A text in which nothing is found is left alone.** -/
theorem Clear.sub (clear : Clear find none s) : sub find s = s := clear.subFrom

theorem Clear.behind (clear : Clear find prev (found ++ s)) : Clear find (before prev found) s := by
  induction found generalizing prev with
  | nil => exact clear
  | cons c found ih =>
      rw [before_cons]
      exact ih clear.2

/-- A substitution in a text in which another finder finds nothing. -/
theorem Substitutes.of_clear {Kept : Option α → List α → Prop}
    (step : Substitutes find Kept prev s r) (clear : Clear other prev s) :
    Substitutes find (fun prev s => other prev s = none) prev s r := by
  induction step with
  | nil => exact .nil
  | keep _ _ ih => exact .keep clear.1 (ih clear.2)
  | swap nonempty isFound _ ih =>
      refine .swap nonempty isFound (ih ?_)
      rw [← before_of_ne_nil _ nonempty]
      exact clear.behind

/-- What holds of the characters of a text and of all that is put holds of the result. -/
theorem Substitutes.forall_mem {Kept : Option α → List α → Prop} {P : α → Prop}
    (step : Substitutes find Kept prev s r) (all : ∀ c ∈ s, P c)
    (put : ∀ prev s more, find prev s = some more → (∀ c ∈ s, P c) → ∀ c ∈ more.2, P c) :
    ∀ c ∈ r, P c := by
  induction step with
  | nil => exact all
  | keep _ _ ih =>
      obtain ⟨first, rest⟩ := List.forall_mem_cons.mp all
      exact List.forall_mem_cons.mpr ⟨first, ih rest⟩
  | swap _ isFound _ ih =>
      refine List.forall_mem_append.mpr ⟨put _ _ _ isFound all, ih ?_⟩
      exact (List.forall_mem_append.mp all).2

/-! ## Counting -/

section Counting

variable [DecidableEq α] {x : α} {Kept : Option α → List α → Prop}

/-- A scan that puts no more of a character than it finds. -/
theorem Substitutes.count_le (step : Substitutes find Kept prev s r)
    (fewer : ∀ prev s more, find prev s = some more → more.2.count x ≤ (s.take more.1).count x) :
    r.count x ≤ s.count x := by
  induction step with
  | nil => exact le_rfl
  | @keep prev c s r _ _ ih =>
      rw [List.count_cons, List.count_cons]
      exact Nat.add_le_add_right ih _
  | @swap prev found new s r _ isFound _ ih =>
      have here := fewer _ _ _ isFound
      rw [List.take_left] at here
      rw [List.count_append, List.count_append]
      exact Nat.add_le_add here ih

/-- A scan that puts less of a character than it finds, whenever it finds something. -/
theorem Substitutes.clear_or_count_lt
    (step : Substitutes find (fun prev s => find prev s = none) prev s r)
    (fewer : ∀ prev s more, find prev s = some more → more.2.count x < (s.take more.1).count x) :
    Clear find prev s ∨ r.count x < s.count x := by
  induction step with
  | nil => exact .inl trivial
  | @keep prev c s r kept _ ih =>
      rw [List.count_cons, List.count_cons]
      exact ih.imp (fun clear => ⟨kept, clear⟩) (Nat.add_lt_add_right · _)
  | @swap prev found new s r _ isFound rest _ =>
      have here := fewer _ _ _ isFound
      have later := rest.count_le fun prev s more isFound => (fewer prev s more isFound).le
      rw [List.take_left] at here
      rw [List.count_append, List.count_append]
      exact .inr (Nat.add_lt_add_of_lt_of_le here later)

end Counting

end Finder

/-! ## Rules -/

/-- A pattern that ends in `[…]+`: a head, and after it a run of characters of one class,
as long as it can be.  It is replaced by a text, in front of which the head may be kept. -/
structure Rule (α : Type) where
  /-- Whether the pattern may begin behind a character (`\b`). -/
  starts : Option α → Bool
  head : Regex α
  last : α → Bool
  keepsHead : Bool
  new : List α

namespace Rule

variable {α : Type} {rule : Rule α} {prev : Option α} {s : List α}

/-- What is put for a match with a given head. -/
def replacement (rule : Rule α) (head : List α) : List α :=
  (if rule.keepsHead then head else []) ++ rule.new

/-- `pattern.sub(new, …)` at one position. -/
def find (rule : Rule α) : Finder α := fun prev s =>
  if rule.starts prev then
    ((rule.head.lengths s).find? fun n => (s.drop n).head?.any rule.last).map fun n =>
      (n + ((s.drop n).takeWhile rule.last).length, rule.replacement (s.take n))
  else none

/-- Nothing is found where no head is followed by a character of the class. -/
theorem find_eq_none_iff : rule.find prev s = none ↔
    (rule.starts prev = true → ∀ head d rest, s = head ++ d :: rest → rule.head.Accepts head →
      rule.last d = false) := by
  unfold find
  by_cases starts : rule.starts prev = true
  · rw [if_pos starts, Option.map_eq_none_iff, List.find?_eq_none]
    constructor
    · rintro none - head d rest rfl accepted
      have tried := Regex.mem_lengths.mpr ⟨head, List.prefix_append head (d :: rest), accepted, rfl⟩
      simpa using none head.length tried
    · intro none n tried
      obtain ⟨head, ⟨rest, rfl⟩, accepted, rfl⟩ := Regex.mem_lengths.mp tried
      rw [List.drop_left]
      cases rest with
      | nil => simp
      | cons d rest => simpa using none starts head d rest rfl accepted
  · rw [if_neg starts]
    exact iff_of_true rfl fun yes => absurd yes starts

/-- Where no head begins, nothing is found. -/
theorem find_eq_none_of_first {c : α} (nonempty : ¬ rule.head.Accepts [])
    (never : ∀ w, ¬ rule.head.Accepts (c :: w)) : rule.find prev (c :: s) = none := by
  rw [find_eq_none_iff]
  intro _ head d rest split accepted
  cases head with
  | nil => exact absurd accepted nonempty
  | cons e head =>
      obtain ⟨rfl, -⟩ := List.cons.inj split
      exact absurd accepted (never head)

/-- **What is found**: a head, a character of the class and the others that follow it. -/
theorem find_eq_some {more : Nat × List α} (isFound : rule.find prev s = some more) :
    ∃ head d run rest, s = (head ++ d :: run) ++ rest ∧ rule.head.Accepts head ∧
      rule.last d = true ∧ (∀ c ∈ run, rule.last c = true) ∧
      (∀ c ∈ rest.head?, rule.last c = false) ∧
      more = ((head ++ d :: run).length, rule.replacement head) ∧ rule.starts prev = true := by
  unfold find at isFound
  split at isFound
  next starts =>
    obtain ⟨n, first, rfl⟩ := Option.map_eq_some_iff.mp isFound
    obtain ⟨head, ⟨behind, rfl⟩, accepted, rfl⟩ := Regex.mem_lengths.mp (List.mem_of_find?_eq_some first)
    have next := List.find?_some first
    simp only [List.drop_left, List.take_left] at next ⊢
    cases behind with
    | nil => simp at next
    | cons d behind =>
        have holds : rule.last d = true := by simpa using next
        refine ⟨head, d, behind.takeWhile rule.last, behind.dropWhile rule.last, ?_, accepted, holds,
          fun c member => List.mem_takeWhile_imp member, ?_, ?_, starts⟩
        · simp
        · intro c isFirst
          have stops := List.head?_dropWhile_not rule.last behind
          rw [Option.mem_def.mp isFirst] at stops
          exact stops
        · rw [List.takeWhile_cons_of_pos holds, List.length_append]
  next => cases isFound

theorem sound (rule : Rule α) : Finder.Sound rule.find := by
  intro prev s more isFound
  obtain ⟨head, d, run, rest, rfl, -, -, -, -, rfl, -⟩ := find_eq_some isFound
  simp only [List.length_append, List.length_cons]
  omega

/-- The only element that there is to be found. -/
theorem find?_of_unique {β : Type} {p : β → Bool} {x : β} {l : List β} (member : x ∈ l)
    (holds : p x = true) (unique : ∀ y ∈ l, p y = true → y = x) : l.find? p = some x := by
  cases found : l.find? p with
  | none => exact absurd holds (List.find?_eq_none.mp found x member)
  | some y => rw [unique y (List.mem_of_find?_eq_some found) (List.find?_some found)]

/-- What is found where there is only one head that is followed by a character of the class. -/
theorem find_of_unique {head run rest : List α} (starts : rule.starts prev = true)
    (accepted : rule.head.Accepts head) (nonempty : run ≠ [])
    (all : ∀ c ∈ run, rule.last c = true) (stops : ∀ c ∈ rest.head?, rule.last c = false)
    (unique : ∀ w d s, head ++ (run ++ rest) = w ++ d :: s → rule.head.Accepts w →
      rule.last d = true → w = head) :
    rule.find prev (head ++ (run ++ rest)) = some ((head ++ run).length, rule.replacement head) := by
  have whole : (run ++ rest).takeWhile rule.last = run := by
    rw [List.takeWhile_append_of_pos all]
    cases rest with
    | nil => simp
    | cons c rest => simp [stops c rfl]
  have tried : head.length ∈ rule.head.lengths (head ++ (run ++ rest)) :=
    Regex.mem_lengths.mpr ⟨head, List.prefix_append head (run ++ rest), accepted, rfl⟩
  have next : ((head ++ (run ++ rest)).drop head.length).head?.any rule.last = true := by
    obtain ⟨d, run, rfl⟩ := List.exists_cons_of_ne_nil nonempty
    rw [List.drop_left]
    exact all d List.mem_cons_self
  have only : ∀ n ∈ rule.head.lengths (head ++ (run ++ rest)),
      ((head ++ (run ++ rest)).drop n).head?.any rule.last = true → n = head.length := by
    intro n tried next
    obtain ⟨w, ⟨behind, split⟩, isHead, rfl⟩ := Regex.mem_lengths.mp tried
    rw [← split, List.drop_left] at next
    cases behind with
    | nil => cases next
    | cons d s => rw [unique w d s split.symm isHead next]
  rw [find, if_pos starts, find?_of_unique tried next only, Option.map_some, List.drop_left,
    List.take_left, whole, List.length_append]

/-- No rule puts more of a character than it has found, if it is not in the new text. -/
theorem count_find_le [DecidableEq α] {x : α} (absent : x ∉ rule.new) (prev : Option α) (s : List α)
    (more : Nat × List α) (isFound : rule.find prev s = some more) :
    more.2.count x ≤ (s.take more.1).count x := by
  obtain ⟨head, d, run, rest, rfl, -, -, -, -, rfl, -⟩ := find_eq_some isFound
  rw [List.take_left, List.count_append, replacement, List.count_append,
    List.count_eq_zero_of_not_mem absent, Nat.add_zero]
  split
  · exact Nat.le_add_right _ _
  · exact Nat.zero_le _

/-! ## Rules one after the other -/

/-- A match of the other rule that would begin before what this one puts, and end in it, was
there before. -/
structure Carries (rule other : Rule α) : Prop where
  nonempty : ¬ other.head.Accepts []
  /-- What the other one begins with belongs to a run of this one. -/
  absorbs : ∀ c w, other.head.Accepts (c :: w) → rule.last c = true
  carried : ∀ head d, rule.head.Accepts head → rule.last d = true →
    ∀ passed word e rest, passed ≠ [] → other.head.Accepts (passed ++ word) →
      other.last e = true → word ++ [e] <+: rule.replacement head ++ rest →
        ∃ word' e', word' ++ [e'] <+: head ++ [d] ∧ other.head.Accepts (passed ++ word') ∧
          other.last e' = true

/-- Nor does a match of the other one begin in what this one puts. -/
structure Spares (rule other : Rule α) : Prop extends Carries rule other where
  quiet : ∀ head, rule.head.Accepts head → ∀ before c after,
    rule.replacement head = before ++ c :: after → ∀ prev rest,
      other.find prev (c :: after ++ rest) = none

/-- What is put is found again, and replaced by itself. -/
structure Settles (rule : Rule α) : Prop extends Carries rule rule where
  starts : ∀ prev, rule.starts prev = true
  again : ∀ head, rule.head.Accepts head → ∀ prev rest, (∀ c ∈ rest.head?, rule.last c = false) →
    rule.find prev (rule.replacement head ++ rest) =
      some ((rule.replacement head).length, rule.replacement head)

section Pairs

variable {other : Rule α} {c : α} {r : List α}

/-- A match that ends at the first character of what is put could have ended at the first one
of what was found, so that only those are left that go on. -/
theorem Carries.of_cons (nonempty : ¬ rule.head.Accepts []) (nonempty' : ¬ other.head.Accepts [])
    (absorbs : ∀ c w, other.head.Accepts (c :: w) → rule.last c = true)
    (absorbs' : ∀ c w, rule.head.Accepts (c :: w) → other.last c = true)
    (carried : ∀ head d, rule.head.Accepts head → rule.last d = true →
      ∀ passed word e rest, passed ≠ [] → word ≠ [] → other.head.Accepts (passed ++ word) →
        other.last e = true → word ++ [e] <+: rule.replacement head ++ rest →
          ∃ word' e', word' ++ [e'] <+: head ++ [d] ∧ other.head.Accepts (passed ++ word') ∧
            other.last e' = true) : Carries rule other where
  nonempty := nonempty'
  absorbs := absorbs
  carried head d isHead holds passed word e rest some accepted holds' begins := by
    rcases List.eq_nil_or_concat' word with rfl | ⟨front, last, rfl⟩
    · cases head with
      | nil => exact absurd isHead nonempty
      | cons c head => exact ⟨[], c, ⟨head ++ [d], rfl⟩, accepted, absorbs' c head isHead⟩
    · exact carried head d isHead holds passed (front ++ [last]) e rest some (by simp) accepted
        holds' begins

variable {prev' : Option α} {Kept : Option α → List α → Prop}

/-- A match that ends behind a character that was kept was there before. -/
theorem Carries.carry (carries : Carries rule other)
    (step : Finder.Substitutes rule.find Kept prev s r) {passed word : List α} {e : α}
    (some : passed ≠ []) (accepted : other.head.Accepts (passed ++ word))
    (holds : other.last e = true) (begins : word ++ [e] <+: r) :
    ∃ word' e', word' ++ [e'] <+: s ∧ other.head.Accepts (passed ++ word') ∧
      other.last e' = true := by
  induction step generalizing passed word with
  | nil => simp at begins
  | @keep prev c s r _ _ ih =>
      cases word with
      | nil =>
          obtain ⟨rfl, -⟩ := List.cons_prefix_cons.mp begins
          exact ⟨[], e, by simp, accepted, holds⟩
      | cons d word =>
          obtain ⟨rfl, later⟩ := List.cons_prefix_cons.mp begins
          rw [List.append_cons] at accepted
          obtain ⟨word', e', begins', accepted', holds'⟩ := ih (by simp) accepted later
          exact ⟨d :: word', e', List.cons_prefix_cons.mpr ⟨rfl, begins'⟩, by simpa using accepted',
            holds'⟩
  | @swap prev found new s r _ isFound _ _ =>
      obtain ⟨head, d, run, rest, split, isHead, first, -, -, more, -⟩ := find_eq_some isFound
      obtain ⟨length, rfl⟩ := Prod.mk.inj more
      obtain ⟨rfl, rfl⟩ := List.append_inj split length
      obtain ⟨word', e', begins', accepted', holds'⟩ :=
        carries.carried head d isHead first passed word e r some accepted holds begins
      refine ⟨word', e', begins'.trans ?_, accepted', holds'⟩
      exact ⟨run ++ s, by simp⟩

/-- Nothing is found at a character that was kept, where nothing was before. -/
theorem Carries.kept (carries : Carries rule other) (silent : other.find prev (c :: s) = none)
    (rest : Finder.Substitutes rule.find Kept (some c) s r)
    (same : other.starts prev' = true → other.starts prev = true ∨
      ∀ w, ¬ other.head.Accepts (c :: w)) : other.find prev' (c :: r) = none := by
  rw [find_eq_none_iff] at silent ⊢
  intro starts head e tail split accepted
  by_contra holds
  cases head with
  | nil => exact carries.nonempty accepted
  | cons d word =>
      obtain ⟨rfl, rfl⟩ := List.cons.inj split
      rcases same starts with started | never
      · obtain ⟨word', e', ⟨tail', rfl⟩, accepted', holds'⟩ := carries.carry rest
          (List.cons_ne_nil c []) accepted (by simpa using holds) ⟨tail, by simp⟩
        have refused := silent started (c :: word') e' tail' (by simp) accepted'
        rw [holds'] at refused
        cases refused
      · exact never word accepted

/-- **A rule leaves a text clear of another one** that finds nothing at the characters that
are kept. -/
theorem Spares.clear (spares : Spares rule other)
    (step : Finder.Substitutes rule.find (fun prev s => other.find prev s = none) prev s r)
    (same : prev' = prev ∨ ∀ c ∈ s.head?, ∀ w, ¬ other.head.Accepts (c :: w)) :
    Finder.Clear other.find prev' r := by
  induction step generalizing prev' with
  | nil => trivial
  | @keep prev c s r kept rest ih =>
      refine ⟨spares.kept kept rest ?_, ih (.inl rfl)⟩
      rcases same with rfl | never
      · exact .inl
      · exact fun _ => .inr (never c rfl)
  | @swap prev found new s r nonempty isFound rest ih =>
      obtain ⟨head, d, run, behind, split, isHead, first, all, stops, more, -⟩ := find_eq_some isFound
      obtain ⟨length, rfl⟩ := Prod.mk.inj more
      obtain ⟨rfl, rfl⟩ := List.append_inj split length
      have later : ∀ prev, Finder.Clear other.find prev r := by
        intro prev
        refine ih (.inr ?_)
        intro c isFirst w accepted
        have stopped := stops c isFirst
        rw [spares.absorbs c w accepted] at stopped
        cases stopped
      have inside : ∀ before after prev, rule.replacement head = before ++ after →
          Finder.Clear other.find prev (after ++ r) := by
        intro before after
        induction after generalizing before with
        | nil => exact fun prev _ => later prev
        | cons c after ih =>
            intro prev split
            refine ⟨spares.quiet head isHead before c after split prev r, ?_⟩
            exact ih (before ++ [c]) (some c) (by simpa using split)
      exact inside [] _ prev' rfl

/-- Behind what was found, the text goes on as it did. -/
theorem Carries.head? (carries : Carries rule rule)
    (step : Finder.Substitutes rule.find Kept prev s r)
    (stops : ∀ c ∈ s.head?, rule.last c = false) : r.head? = s.head? := by
  cases step with
  | nil | keep => rfl
  | @swap _ found new s r nonempty isFound =>
      obtain ⟨head, d, run, behind, split, isHead, -, -, -, -, -⟩ := find_eq_some isFound
      cases head with
      | nil => exact absurd isHead carries.nonempty
      | cons c head =>
          have stopped := stops c (by rw [split]; rfl)
          rw [carries.absorbs c head isHead] at stopped
          cases stopped

/-- **A second scan changes nothing.** -/
theorem Settles.subFrom (settles : Settles rule)
    (step : Finder.Substitutes rule.find (fun prev s => rule.find prev s = none) prev s r) :
    Finder.subFrom rule.find 0 prev' r = r := by
  induction step generalizing prev' with
  | nil => rfl
  | @keep prev c s r kept rest ih =>
      have silent : rule.find prev' (c :: r) = none :=
        settles.kept kept rest fun _ => .inl (settles.starts prev)
      rw [Finder.subFrom, silent]
      exact congrArg (c :: ·) ih
  | @swap prev found new s r nonempty isFound rest ih =>
      obtain ⟨head, d, run, behind, split, isHead, first, all, stops, more, -⟩ := find_eq_some isFound
      obtain ⟨length, rfl⟩ := Prod.mk.inj more
      obtain ⟨rfl, rfl⟩ := List.append_inj split length
      have stops' : ∀ c ∈ r.head?, rule.last c = false := by
        rw [settles.head? rest stops]
        exact stops
      exact Finder.subFrom_of_found (settles.again head isHead prev' r stops') ih

end Pairs

end Rule

end OpsComposer.Foundations
