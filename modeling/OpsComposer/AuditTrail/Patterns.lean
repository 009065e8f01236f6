import OpsComposer.AuditTrail.Metadata

/-!
# What the patterns match

The words of the three rules of `sanitize_text` that end in a run of characters:
how they begin and end, and which characters are not in them.

* `accepts_databaseUrl`, `accepts_bearerValue`, `accepts_secretAssignment` — the
  parts of a word, up to the case of its letters;
* `secretAssignment_unique` — an assignment is found in one way only.
-/

set_option autoImplicit false

namespace OpsComposer.Services.Observability

open Foundations

variable {tables : CharTables}

/-! ## Letters -/

/-- The characters outside of ASCII that are taken for letters. -/
def otherLetters : List Nat := [304, 305, 383, 8490]

/-- What is taken for an ASCII letter. -/
theorem of_foldLetter {c letter : Nat} (folded : foldLetter c = letter) :
    c = letter ∨ c = asciiUpper letter ∨ c ∈ otherLetters := by
  unfold foldLetter at folded
  split at folded
  next capital =>
    refine .inr (.inl ?_)
    rw [← folded, asciiUpper, if_pos (by omega)]
    omega
  · split at folded
    next either => exact .inr (.inr (by rcases either with rfl | rfl <;> decide))
    · split at folded
      next same => exact .inr (.inr (by subst same; decide))
      · split at folded
        next same => exact .inr (.inr (by subst same; decide))
        · exact .inl folded

/-- No letter is taken for a mark. -/
theorem eq_of_foldLetter_mark {c mark : Nat} (low : mark < 65) (folded : foldLetter c = mark) :
    c = mark := by
  unfold foldLetter at folded
  split at folded
  · omega
  · split at folded
    · omega
    · split at folded
      · omega
      · split at folded <;> omega

theorem accepts_word {letters : String} {w : Text} :
    (word letters).Accepts w ↔ w.map foldLetter = text letters := Regex.accepts_literal

/-- A prefix without a mark ends before the mark. -/
theorem prefix_before_mark {mark : Nat} {w front back : Text} (absent : mark ∉ w)
    (begins : w <+: front ++ mark :: back) : w <+: front := by
  rcases List.prefix_or_prefix_of_prefix begins (List.prefix_append front (mark :: back))
    with short | ⟨more, rfl⟩
  · exact short
  · rw [List.prefix_append_right_inj] at begins
    cases more with
    | nil => exact ⟨[], by simp⟩
    | cons d more =>
        obtain ⟨rfl, -⟩ := List.cons_prefix_cons.mp begins
        exact absurd (by simp) absent

theorem asciiAlnum_of_foldLetter {c : Nat} (holds : isAsciiAlnum (foldLetter c) = true) :
    isAsciiAlnum c = true ∨ c ∈ otherLetters := by
  rcases of_foldLetter (c := c) rfl with same | upper | other
  · rw [same]
    exact .inl holds
  · refine .inl ?_
    have alnum : ∀ d < 128, isAsciiAlnum d = true → isAsciiAlnum (asciiUpper d) = true := by decide
    rw [upper]
    refine alnum _ ?_ holds
    simp only [isAsciiAlnum, Bool.or_eq_true, Bool.and_eq_true, decide_eq_true_eq] at holds
    omega
  · exact .inr other

section Classes

variable {p : Nat → Prop}

/-- What holds of the letters of a word, in both cases, and of the others that are taken for
letters, holds of all that the word matches. -/
theorem over_word {letters : String} (both : ∀ c ∈ text letters, p c ∧ p (asciiUpper c))
    (others : ∀ c ∈ otherLetters, p c) : (word letters).Over p := by
  have each : ∀ letters : Text, (∀ c ∈ letters, p c ∧ p (asciiUpper c)) →
      (Regex.literal foldLetter letters).Over p := by
    intro letters
    induction letters with
    | nil => exact fun _ => trivial
    | cons letter letters ih =>
        intro both
        obtain ⟨first, rest⟩ := List.forall_mem_cons.mp both
        refine ⟨?_, ih rest⟩
        intro c same
        rcases of_foldLetter (beq_iff_eq.mp same) with rfl | rfl | other
        · exact first.1
        · exact first.2
        · exact others c other
  exact each (text letters) both

theorem of_isAlnumOr {marks : String} (alnum : ∀ c < 128, isAsciiAlnum c = true → p c)
    (others : ∀ c ∈ otherLetters, p c) (also : ∀ c ∈ text marks, p c) (c : Nat)
    (holds : isAlnumOr marks c = true) : p c := by
  rcases Bool.or_eq_true_iff.mp holds with letter | mark
  · rcases asciiAlnum_of_foldLetter letter with ascii | other
    · refine alnum c ?_ ascii
      simp only [isAsciiAlnum, Bool.or_eq_true, Bool.and_eq_true, decide_eq_true_eq] at ascii
      omega
    · exact others c other
  · exact also c (by simpa using mark)

end Classes

/-! ## Database addresses -/

section DatabaseUrl

variable {w : Text} {c : Nat}

/-- The beginning of an address, and its end. -/
theorem accepts_databaseUrl (accepted : (databaseUrl tables).head.Accepts w) :
    ∃ scheme rest slashes, w = scheme ++ (rest ++ slashes) ∧
      scheme.map foldLetter = text "postgres" ∧ slashes.map foldLetter = text "://" := by
  obtain ⟨scheme, _, isScheme, ⟨ql, _, -, ⟨driver, slashes, -, areSlashes, rfl⟩, rfl⟩, rfl⟩ := accepted
  exact ⟨scheme, ql ++ driver, slashes, by simp, accepts_word.mp isScheme, accepts_word.mp areSlashes⟩

theorem databaseUrl_first (accepted : (databaseUrl tables).head.Accepts (c :: w)) :
    foldLetter c = 112 := by
  obtain ⟨scheme, rest, slashes, split, isScheme, -⟩ := accepts_databaseUrl accepted
  obtain ⟨d, more, rfl, first, -⟩ := List.map_eq_cons_iff.mp isScheme
  obtain ⟨rfl, -⟩ := List.cons.inj split
  exact first

theorem databaseUrl_nonempty : ¬ (databaseUrl tables).head.Accepts [] := by
  intro accepted
  obtain ⟨scheme, rest, slashes, split, isScheme, -⟩ := accepts_databaseUrl accepted
  rw [(List.append_eq_nil_iff.mp split.symm).1] at isScheme
  cases isScheme

theorem databaseUrl_letter (accepted : (databaseUrl tables).head.Accepts w) :
    ∃ c ∈ w, foldLetter c = 103 := by
  obtain ⟨scheme, rest, slashes, rfl, isScheme, -⟩ := accepts_databaseUrl accepted
  have letter : 103 ∈ scheme.map foldLetter := by
    rw [isScheme]
    decide
  obtain ⟨c, member, folded⟩ := List.mem_map.mp letter
  exact ⟨c, List.mem_append_left _ member, folded⟩

/-- An address ends with a slash, also where its beginning has been passed. -/
theorem databaseUrl_last {passed : Text}
    (accepted : (databaseUrl tables).head.Accepts (passed ++ w))
    (nonempty : w ≠ []) : w.getLast nonempty = 47 := by
  obtain ⟨scheme, rest, slashes, same, -, areSlashes⟩ := accepts_databaseUrl accepted
  have split : slashes.map foldLetter = text ":/" ++ [47] := areSlashes
  obtain ⟨front, last, rfl, -, isLast⟩ := List.map_eq_append_iff.mp split
  obtain ⟨d, rfl, folded⟩ := List.map_eq_singleton_iff.mp isLast
  rw [eq_of_foldLetter_mark (by decide) folded] at same
  have lasts : (passed ++ w).getLast? = (scheme ++ (rest ++ (front ++ [47]))).getLast? := by rw [same]
  rw [List.getLast?_append_of_ne_nil _ nonempty, List.getLast?_eq_some_getLast nonempty] at lasts
  simpa using lasts

theorem databaseUrl_chars (accepted : (databaseUrl tables).head.Accepts w) :
    ∀ c ∈ w, c ≠ 91 ∧ Text.isSpace c = false := by
  refine accepted.over ⟨over_word (by decide) (by decide), ⟨over_word (by decide) (by decide),
    trivial⟩, ⟨⟨over_word (by decide) (by decide), ?_⟩, trivial⟩, over_word (by decide) (by decide)⟩
  exact ⟨of_isAlnumOr (by decide) (by decide) (by decide),
    of_isAlnumOr (by decide) (by decide) (by decide)⟩

end DatabaseUrl

/-! ## Bearer values -/

section BearerValue

variable {w : Text} {c : Nat}

theorem accepts_bearerValue (accepted : (bearerValue tables).head.Accepts w) :
    ∃ scheme spaces, w = scheme ++ spaces ∧ scheme.map foldLetter = text "bearer" ∧ spaces ≠ [] ∧
      ∀ c ∈ spaces, Text.isSpace c = true := by
  obtain ⟨scheme, spaces, isScheme, areSpaces, rfl⟩ := accepted
  obtain ⟨nonempty, all⟩ := Regex.accepts_oneOrMore.mp areSpaces
  exact ⟨scheme, spaces, rfl, accepts_word.mp isScheme, nonempty, all⟩

/-- No letter is white space. -/
theorem foldLetter_space {c letter : Nat} (space : Text.isSpace c = true)
    (alnum : isAsciiAlnum letter = true) : foldLetter c ≠ letter := by
  intro folded
  rw [← folded] at alnum
  rcases asciiAlnum_of_foldLetter alnum with ascii | other
  · have small : c < 128 := by
      simp only [isAsciiAlnum, Bool.or_eq_true, Bool.and_eq_true, decide_eq_true_eq] at ascii
      omega
    have visible := (by decide : ∀ c < 128, isAsciiAlnum c = true → Text.isSpace c = false) c small ascii
    rw [space] at visible
    cases visible
  · have visible := (by decide : ∀ c ∈ otherLetters, Text.isSpace c = false) c other
    rw [space] at visible
    cases visible

/-- The first letter of the word comes only once. -/
theorem bearerValue_first (accepted : (bearerValue tables).head.Accepts (c :: w)) :
    foldLetter c = 98 ∧ ∀ d ∈ w, foldLetter d ≠ 98 := by
  obtain ⟨scheme, spaces, split, isScheme, -, all⟩ := accepts_bearerValue accepted
  obtain ⟨first, more, rfl, isFirst, areMore⟩ := List.map_eq_cons_iff.mp isScheme
  obtain ⟨rfl, rfl⟩ := List.cons.inj split
  refine ⟨isFirst, List.forall_mem_append.mpr ⟨?_, ?_⟩⟩
  · intro d member folded
    have letter : 98 ∈ more.map foldLetter := folded ▸ List.mem_map_of_mem member
    rw [areMore] at letter
    exact absurd letter (by decide)
  · exact fun d member => foldLetter_space (all d member) (by decide)

theorem bearerValue_nonempty : ¬ (bearerValue tables).head.Accepts [] := by
  intro accepted
  obtain ⟨scheme, spaces, split, -, nonempty, -⟩ := accepts_bearerValue accepted
  exact nonempty (List.append_eq_nil_iff.mp split.symm).2

theorem bearerValue_length (accepted : (bearerValue tables).head.Accepts w) : 7 ≤ w.length := by
  obtain ⟨scheme, spaces, rfl, isScheme, nonempty, -⟩ := accepts_bearerValue accepted
  have six : scheme.length = 6 := by
    rw [← List.length_map foldLetter, isScheme]
    decide
  have some := List.length_pos_iff.mpr nonempty
  rw [List.length_append]
  omega

theorem bearerValue_chars (accepted : (bearerValue tables).head.Accepts w) : 91 ∉ w := by
  have all : ∀ c ∈ w, c ≠ 91 := by
    refine accepted.over ⟨over_word (by decide) (by decide), ?_⟩
    have spaces : ∀ c, Text.isSpace c = true → c ≠ 91 := by
      rintro _ space rfl
      cases space
    exact ⟨spaces, spaces⟩
  exact fun member => all 91 member rfl

end BearerValue

/-! ## Assignments -/

/-- The names of secrets, in lower case. -/
def secretNames : List Text :=
  ["password", "passphrase", "secret", "token", "authorization", "csrf", "master_key", "master-key",
    "masterkey"].map text

section SecretAssignment

variable {w name sign : Text} {c d : Nat}

theorem accepts_secretName (accepted : secretName.Accepts name) :
    name.map foldLetter ∈ secretNames := by
  rcases accepted with one | one | one | one | one | one |
    ⟨master, _, isMaster, ⟨mark, key, isMark, isKey, rfl⟩, rfl⟩
  · rw [accepts_word.mp one]
    decide
  · rw [accepts_word.mp one]
    decide
  · rw [accepts_word.mp one]
    decide
  · rw [accepts_word.mp one]
    decide
  · rw [accepts_word.mp one]
    decide
  · rw [accepts_word.mp one]
    decide
  · rw [List.map_append, List.map_append, accepts_word.mp isMaster, accepts_word.mp isKey]
    rcases isMark with ⟨c, among, rfl⟩ | none
    · have either : c = 95 ∨ c = 45 := by simpa [text] using among
      rcases either with rfl | rfl <;> decide
    · rw [show mark = [] from none]
      decide

theorem accepts_assignmentSign (accepted : assignmentSign.Accepts sign) :
    ∃ before mark after, sign = before ++ mark :: after ∧ (mark = 61 ∨ mark = 58) ∧
      (∀ c ∈ before, Text.isSpace c = true) ∧ ∀ c ∈ after, Text.isSpace c = true := by
  obtain ⟨before, _, isBefore, ⟨_, after, ⟨mark, among, rfl⟩, isAfter, rfl⟩, rfl⟩ := accepted
  exact ⟨before, mark, after, rfl, by simpa [text] using among, isBefore, isAfter⟩

theorem accepts_secretAssignment (accepted : secretAssignment.head.Accepts w) :
    ∃ name sign, w = name ++ sign ∧ name.map foldLetter ∈ secretNames ∧
      assignmentSign.Accepts sign := by
  obtain ⟨name, sign, isName, isSign, rfl⟩ := accepted
  exact ⟨name, sign, rfl, accepts_secretName isName, isSign⟩

/-- The characters of a sign. -/
theorem mem_assignmentSign (accepted : assignmentSign.Accepts sign) (member : c ∈ sign) :
    c = 61 ∨ c = 58 ∨ Text.isSpace c = true := by
  obtain ⟨before, mark, after, rfl, isMark, spaces, spaces'⟩ := accepts_assignmentSign accepted
  rcases List.mem_append.mp member with here | here
  · exact .inr (.inr (spaces c here))
  · rcases List.mem_cons.mp here with rfl | later
    · exact isMark.imp_right .inl
    · exact .inr (.inr (spaces' c later))

theorem secretAssignment_nonempty : ¬ secretAssignment.head.Accepts [] := by
  intro accepted
  obtain ⟨name, sign, split, isName, -⟩ := accepts_secretAssignment accepted
  rw [(List.append_eq_nil_iff.mp split.symm).1] at isName
  exact absurd isName (by decide)

/-- Neither the names nor the signs have these characters. -/
theorem secretAssignment_chars (accepted : secretAssignment.head.Accepts w) :
    ∀ c ∈ w, c ≠ 91 ∧ foldLetter c ≠ 98 ∧ foldLetter c ≠ 103 := by
  obtain ⟨name, sign, rfl, isName, isSign⟩ := accepts_secretAssignment accepted
  refine List.forall_mem_append.mpr ⟨?_, ?_⟩
  · have letters : ∀ name ∈ secretNames, ∀ c ∈ name, c ≠ 91 ∧ c ≠ 98 ∧ c ≠ 103 := by decide
    intro c member
    obtain ⟨bracket, rest⟩ := letters _ isName (foldLetter c) (List.mem_map_of_mem member)
    refine ⟨?_, rest⟩
    rintro rfl
    exact bracket (by decide)
  · intro c member
    rcases mem_assignmentSign isSign member with rfl | rfl | space
    · decide
    · decide
    · refine ⟨?_, foldLetter_space space (by decide), foldLetter_space space (by decide)⟩
      rintro rfl
      cases space

/-- A name begins with a letter. -/
theorem secretAssignment_first (accepted : secretAssignment.head.Accepts (c :: w)) :
    foldLetter c ∈ [112, 115, 116, 97, 99, 109] := by
  obtain ⟨name, sign, split, isName, -⟩ := accepts_secretAssignment accepted
  have firsts : ∀ name ∈ secretNames, name ≠ [] ∧
      ∀ c ∈ name.head?, c ∈ [112, 115, 116, 97, 99, 109] := by decide
  obtain ⟨nonempty, first⟩ := firsts _ isName
  cases name with
  | nil => exact absurd rfl nonempty
  | cons d name =>
      obtain ⟨rfl, -⟩ := List.cons.inj split
      exact first _ rfl

theorem secretAssignment_last (accepted : secretAssignment.head.Accepts w) (nonempty : w ≠ []) :
    w.getLast nonempty ≠ 47 := by
  obtain ⟨name, sign, rfl, -, isSign⟩ := accepts_secretAssignment accepted
  have some : sign ≠ [] := by
    obtain ⟨before, mark, after, rfl, -⟩ := accepts_assignmentSign isSign
    simp
  intro isLast
  rw [List.getLast_append_of_ne_nil nonempty some] at isLast
  have member := isLast ▸ List.getLast_mem some
  rcases mem_assignmentSign isSign member with absurd | absurd | absurd <;> cases absurd

/-- Runs of one class that end at other characters. -/
theorem run_unique {p : Nat → Bool} {run run' s t : Text} (all : ∀ c ∈ run, p c = true)
    (all' : ∀ c ∈ run', p c = true) (stops : p c = false) (stops' : p d = false)
    (same : run ++ c :: s = run' ++ d :: t) : run = run' ∧ c :: s = d :: t := by
  have first := congrArg (List.takeWhile p) same
  rw [List.takeWhile_append_of_pos all, List.takeWhile_append_of_pos all',
    List.takeWhile_cons_of_neg (by simp [stops]), List.takeWhile_cons_of_neg (by simp [stops']),
    List.append_nil, List.append_nil] at first
  subst first
  exact ⟨rfl, List.append_cancel_left same⟩

/-- **An assignment is found in one way only**: no name is the beginning of another one, and
white space is taken as far as it goes. -/
theorem secretAssignment_unique {w' s t : Text} (accepted : secretAssignment.head.Accepts w)
    (accepted' : secretAssignment.head.Accepts w') (holds : secretAssignment.last c = true)
    (holds' : secretAssignment.last d = true) (same : w ++ c :: s = w' ++ d :: t) : w = w' := by
  have apart : ∀ one ∈ secretNames, ∀ other ∈ secretNames, one <+: other → one = other := by decide
  have visible : ∀ {e}, secretAssignment.last e = true → Text.isSpace e = false := by
    intro e holds
    obtain ⟨visible, -⟩ := Bool.and_eq_true_iff.mp holds
    simpa using visible
  have marked : ∀ {mark : Nat}, mark = 61 ∨ mark = 58 → Text.isSpace mark = false := by
    rintro mark (rfl | rfl) <;> rfl
  obtain ⟨name, sign, rfl, isName, isSign⟩ := accepts_secretAssignment accepted
  obtain ⟨name', sign', rfl, isName', isSign'⟩ := accepts_secretAssignment accepted'
  rw [List.append_assoc, List.append_assoc] at same
  have names : name = name' := by
    have length : name.length = name'.length := by
      rcases List.prefix_or_prefix_of_prefix (List.prefix_append name _)
        (same ▸ List.prefix_append name' _) with short | short
      · have folded := apart _ isName _ isName' (short.map foldLetter)
        simpa using congrArg List.length folded
      · have folded := apart _ isName' _ isName (short.map foldLetter)
        simpa using congrArg List.length folded.symm
    exact (List.append_inj same length).1
  subst names
  have signs := List.append_cancel_left same
  obtain ⟨before, mark, after, rfl, isMark, spaces, spaces'⟩ := accepts_assignmentSign isSign
  obtain ⟨before', mark', after', rfl, isMark', spaces₁, spaces₁'⟩ := accepts_assignmentSign isSign'
  rw [List.append_assoc, List.append_assoc, List.cons_append, List.cons_append] at signs
  obtain ⟨rfl, marks⟩ := run_unique spaces spaces₁ (marked isMark) (marked isMark') signs
  obtain ⟨rfl, behind⟩ := List.cons.inj marks
  obtain ⟨rfl, -⟩ := run_unique spaces' spaces₁' (visible holds) (visible holds') behind
  rfl

end SecretAssignment

end OpsComposer.Services.Observability
