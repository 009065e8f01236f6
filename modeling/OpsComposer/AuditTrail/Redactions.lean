import OpsComposer.AuditTrail.Patterns

/-!
# Redacting a text twice

`sanitize_text` makes four substitutions and cuts what is left.  The last three
leave nothing behind that any of them would change: what one puts does not make up
a match of another (`Rule.Spares`), and an assignment whose value has been replaced
is found again and replaced by itself (`Rule.Settles`).  Only the first one, for
private keys, can find something in the result, and then it takes dashes away that
nothing puts back.

* `redactText_redactText_iff` — a second redaction changes nothing if and only if
  the first one has left no private key;
* `sanitizeText_sanitizeText_iff` — the same with the cut.
-/

set_option autoImplicit false

namespace OpsComposer.Services.Observability

open Foundations

variable {tables : CharTables}

/-! ## One rule after the other -/

section Pairs

variable {c : Nat} {w : Text}

/-- What is taken for one of these letters is in a run of every rule. -/
theorem last_of_first (tables : CharTables)
    (first : foldLetter c ∈ [112, 98, 115, 116, 97, 99, 109]) :
    (databaseUrl tables).last c = true ∧ (bearerValue tables).last c = true ∧
      secretAssignment.last c = true := by
  have letters : ∀ letter ∈ [112, 98, 115, 116, 97, 99, 109],
      ∀ c ∈ letter :: asciiUpper letter :: otherLetters,
        isVisibleBut "\"'<>" c = true ∧ isAlnumOr "._~+/=-" c = true ∧ isVisibleBut ",;" c = true := by
    decide
  apply letters _ first
  rcases of_foldLetter (c := c) rfl with same | upper | other
  · exact List.mem_cons.mpr (.inl same)
  · exact List.mem_cons_of_mem _ (List.mem_cons.mpr (.inl upper))
  · exact List.mem_cons_of_mem _ (List.mem_cons_of_mem _ other)

theorem databaseUrl_letters (accepted : (databaseUrl tables).head.Accepts (c :: w)) :
    foldLetter c ∈ [112, 98, 115, 116, 97, 99, 109] := by
  rw [databaseUrl_first accepted]
  decide

theorem bearerValue_letters (accepted : (bearerValue tables).head.Accepts (c :: w)) :
    foldLetter c ∈ [112, 98, 115, 116, 97, 99, 109] := by
  rw [(bearerValue_first accepted).1]
  decide

theorem secretAssignment_letters (accepted : secretAssignment.head.Accepts (c :: w)) :
    foldLetter c ∈ [112, 98, 115, 116, 97, 99, 109] :=
  (by decide : ∀ letter ∈ [112, 115, 116, 97, 99, 109], letter ∈ [112, 98, 115, 116, 97, 99, 109])
    _ (secretAssignment_first accepted)

/-- No address begins in a text without its first letter. -/
theorem databaseUrl_find_eq_none (put : Text) {before after : Text}
    (absent : ∀ d ∈ put, foldLetter d ≠ 112) (split : put = before ++ c :: after)
    (prev : Option Nat) (rest : Text) :
    (databaseUrl tables).find prev (c :: after ++ rest) = none := by
  refine Rule.find_eq_none_of_first databaseUrl_nonempty fun w accepted => ?_
  exact absent c (by simp [split]) (databaseUrl_first accepted)

/-- What is put for an address begins with a mark that no address has. -/
theorem databaseUrl_spares_databaseUrl : Rule.Spares (databaseUrl tables) (databaseUrl tables) where
  toCarries := by
    refine .of_cons databaseUrl_nonempty databaseUrl_nonempty
      (fun c w accepted => (last_of_first tables (databaseUrl_letters accepted)).1)
      (fun c w accepted => (last_of_first tables (databaseUrl_letters accepted)).1) ?_
    intro head d _ _ passed word e rest _ some accepted _ begins
    have bracket : (databaseUrl tables).replacement head = 91 :: text "REDACTED_DATABASE_URL]" := rfl
    obtain ⟨c, word, rfl⟩ := List.exists_cons_of_ne_nil some
    rw [bracket] at begins
    obtain ⟨rfl, -⟩ := List.cons_prefix_cons.mp begins
    exact absurd rfl (databaseUrl_chars accepted 91 (by simp)).1
  quiet head _ before c after split prev rest :=
    databaseUrl_find_eq_none (text "[REDACTED_DATABASE_URL]") (by decide) split prev rest

/-- What is put for a bearer value. -/
theorem replacement_bearerValue (head : Text) : (bearerValue tables).replacement head =
    text "Bearer" ++ 32 :: (91 :: text "REDACTED]") := rfl

/-- An address has no white space in it, so that it would end inside of the word. -/
theorem bearerValue_spares_databaseUrl : Rule.Spares (bearerValue tables) (databaseUrl tables) where
  toCarries := by
    refine .of_cons bearerValue_nonempty databaseUrl_nonempty
      (fun c w accepted => (last_of_first tables (databaseUrl_letters accepted)).2.1)
      (fun c w accepted => (last_of_first tables (bearerValue_letters accepted)).1) ?_
    intro head d _ _ passed word e rest _ some accepted holds begins
    have solid : 32 ∉ word ++ [e] := by
      intro member
      rcases List.mem_append.mp member with inside | isEnd
      · have space := (databaseUrl_chars accepted 32 (List.mem_append_right _ inside)).2
        cases space
      · rw [← List.mem_singleton.mp isEnd] at holds
        cases holds
    rw [replacement_bearerValue, List.append_assoc (text "Bearer"), List.cons_append] at begins
    have within := (prefix_before_mark solid begins).subset
    have isLast := databaseUrl_last accepted some
    have letter : 47 ∈ text "Bearer" :=
      within (List.mem_append_left _ (isLast ▸ List.getLast_mem some))
    exact absurd letter (by decide)
  quiet head _ before c after split prev rest :=
    databaseUrl_find_eq_none (text "Bearer [REDACTED]") (by decide) split prev rest

/-- What is put for a bearer value begins with the word, but nothing that belongs to a value
follows it. -/
theorem bearerValue_spares_bearerValue : Rule.Spares (bearerValue tables) (bearerValue tables) where
  toCarries := by
    refine .of_cons bearerValue_nonempty bearerValue_nonempty
      (fun c w accepted => (last_of_first tables (bearerValue_letters accepted)).2.1)
      (fun c w accepted => (last_of_first tables (bearerValue_letters accepted)).2.1) ?_
    intro head d _ _ passed word e rest isPassed some accepted _ begins
    have letter : (bearerValue tables).replacement head = 66 :: text "earer [REDACTED]" := rfl
    obtain ⟨c, word, rfl⟩ := List.exists_cons_of_ne_nil some
    obtain ⟨first, passed, rfl⟩ := List.exists_cons_of_ne_nil isPassed
    rw [letter] at begins
    obtain ⟨rfl, -⟩ := List.cons_prefix_cons.mp begins
    exact absurd rfl ((bearerValue_first accepted).2 66 (by simp))
  quiet head _ before c after split prev rest := by
    have put : 66 :: text "earer [REDACTED]" = before ++ c :: after := split
    cases before with
    | cons b before =>
        have later : text "earer [REDACTED]" = before ++ c :: after := (List.cons.inj put).2
        refine Rule.find_eq_none_of_first bearerValue_nonempty fun w accepted => ?_
        have absent : ∀ d ∈ text "earer [REDACTED]", foldLetter d ≠ 98 := by decide
        exact absent c (by simp [later]) (bearerValue_first accepted).1
    | nil =>
        rw [Rule.find_eq_none_iff]
        intro _ w d behind same accepted
        rw [show c :: after = text "Bearer " ++ 91 :: text "REDACTED]" from put.symm,
          List.append_assoc, List.cons_append] at same
        have begins : w <+: text "Bearer " ++ 91 :: (text "REDACTED]" ++ rest) := by
          rw [same]
          exact List.prefix_append w (d :: behind)
        have within := prefix_before_mark (bearerValue_chars accepted) begins
        have isWord : w = text "Bearer " := within.eq_of_length_le (bearerValue_length accepted)
        rw [isWord] at same
        obtain ⟨rfl, -⟩ := List.cons.inj (List.append_cancel_left same)
        rfl

/-- An assignment keeps its head, and what it puts begins with a mark that no other head has:
a match of another rule ends inside of the head, or, where the other rule has the same head,
with the first character behind it. -/
theorem secretAssignment_carries {other : Rule Nat} (nonempty : ¬ other.head.Accepts [])
    (letters : ∀ c w, other.head.Accepts (c :: w) → foldLetter c ∈ [112, 98, 115, 116, 97, 99, 109])
    (chars : ∀ w, other.head.Accepts w → 91 ∉ w)
    (absorbs : ∀ c w, secretAssignment.head.Accepts (c :: w) → other.last c = true)
    (ends : ∀ passed head d, secretAssignment.head.Accepts head → secretAssignment.last d = true →
      other.head.Accepts (passed ++ head) → other.last 91 = true → other.last d = true) :
    Rule.Carries secretAssignment other := by
  refine .of_cons secretAssignment_nonempty nonempty
    (fun c w accepted => (last_of_first latin1 (letters c w accepted)).2.2) absorbs ?_
  intro head d isHead holds passed word e rest _ _ accepted holds' begins
  have put : secretAssignment.replacement head = head ++ 91 :: text "REDACTED]" := rfl
  rw [put, List.append_assoc, List.cons_append] at begins
  have absent : 91 ∉ word := fun member => chars _ accepted (List.mem_append_right _ member)
  obtain ⟨more, rfl⟩ := prefix_before_mark absent ((List.prefix_append word [e]).trans begins)
  cases more with
  | nil =>
      rw [List.append_nil, List.prefix_append_right_inj] at begins
      obtain ⟨rfl, -⟩ := List.cons_prefix_cons.mp begins
      rw [List.append_nil] at isHead ⊢
      exact ⟨word, d, List.prefix_rfl, accepted, ends passed word d isHead holds accepted holds'⟩
  | cons c more =>
      rw [List.append_assoc, List.prefix_append_right_inj] at begins
      obtain ⟨rfl, -⟩ := List.cons_prefix_cons.mp begins
      exact ⟨word, e, ⟨more ++ [d], by simp⟩, accepted, holds'⟩

/-- A rule whose heads have a letter that no name of a secret has. -/
theorem secretAssignment_spares {other : Rule Nat} (carries : Rule.Carries secretAssignment other)
    (first : ∀ c w, other.head.Accepts (c :: w) → foldLetter c ∈ [112, 98])
    (chars : ∀ w, other.head.Accepts w → 91 ∉ w)
    (letter : ∀ w, other.head.Accepts w → ∃ c ∈ w, foldLetter c = 98 ∨ foldLetter c = 103) :
    Rule.Spares secretAssignment other where
  toCarries := carries
  quiet head isHead before c after split prev rest := by
    have put : head ++ 91 :: text "REDACTED]" = before ++ c :: after := split
    rcases List.append_eq_append_iff.mp put with ⟨inside, rfl, later⟩ | ⟨inside, rfl, later⟩
    · -- in the new text no head begins
      refine Rule.find_eq_none_of_first carries.nonempty fun w accepted => ?_
      have absent : ∀ d ∈ 91 :: text "REDACTED]", foldLetter d ∉ [112, 98] := by decide
      exact absent c (by simp [later]) (first c w accepted)
    · cases inside with
      | nil =>
          refine Rule.find_eq_none_of_first carries.nonempty fun w accepted => ?_
          have absent : ∀ d ∈ 91 :: text "REDACTED]", foldLetter d ∉ [112, 98] := by decide
          have here : c :: after = 91 :: text "REDACTED]" := later
          exact absent c (by simp [← here]) (first c w accepted)
      | cons d inside =>
          obtain ⟨rfl, rfl⟩ := List.cons.inj later
          rw [Rule.find_eq_none_iff]
          intro _ w d behind same accepted
          have begins : w <+: c :: inside ++ 91 :: (text "REDACTED]" ++ rest) := by
            rw [show c :: inside ++ 91 :: (text "REDACTED]" ++ rest) = w ++ d :: behind by
              rw [← same]; simp]
            exact List.prefix_append w (d :: behind)
          have within := prefix_before_mark (chars w accepted) begins
          obtain ⟨e, member, folded⟩ := letter w accepted
          have kept := secretAssignment_chars isHead e (List.mem_append_right _ (within.subset member))
          exact absurd folded (not_or.mpr kept.2)

theorem secretAssignment_spares_databaseUrl :
    Rule.Spares secretAssignment (databaseUrl tables) := by
  have chars : ∀ w, (databaseUrl tables).head.Accepts w → 91 ∉ w :=
    fun w accepted member => (databaseUrl_chars accepted 91 member).1 rfl
  refine secretAssignment_spares (secretAssignment_carries databaseUrl_nonempty
    (fun c w => databaseUrl_letters) chars
    (fun c w accepted => (last_of_first tables (secretAssignment_letters accepted)).1) ?_) ?_ chars ?_
  · intro passed head d isHead _ accepted _
    have nonempty : head ≠ [] := by
      rintro rfl
      exact secretAssignment_nonempty isHead
    exact absurd (databaseUrl_last accepted nonempty) (secretAssignment_last isHead nonempty)
  · intro c w accepted
    rw [databaseUrl_first accepted]
    decide
  · intro w accepted
    obtain ⟨c, member, folded⟩ := databaseUrl_letter accepted
    exact ⟨c, member, .inr folded⟩

theorem secretAssignment_spares_bearerValue :
    Rule.Spares secretAssignment (bearerValue tables) := by
  have chars : ∀ w, (bearerValue tables).head.Accepts w → 91 ∉ w := fun w => bearerValue_chars
  refine secretAssignment_spares (secretAssignment_carries bearerValue_nonempty
    (fun c w => bearerValue_letters) chars
    (fun c w accepted => (last_of_first tables (secretAssignment_letters accepted)).2.1) ?_) ?_ chars ?_
  · intro passed head d _ _ _ absurd
    cases absurd
  · intro c w accepted
    rw [(bearerValue_first accepted).1]
    decide
  · intro w accepted
    cases w with
    | nil => exact absurd accepted bearerValue_nonempty
    | cons c w => exact ⟨c, List.mem_cons_self, .inl (bearerValue_first accepted).1⟩

theorem secretAssignment_settles : Rule.Settles secretAssignment where
  toCarries := secretAssignment_carries secretAssignment_nonempty
    (fun c w => secretAssignment_letters)
    (fun w accepted member => (secretAssignment_chars accepted 91 member).1 rfl)
    (fun c w accepted => (last_of_first latin1 (secretAssignment_letters accepted)).2.2)
    (fun passed head d _ holds _ _ => holds)
  starts _ := rfl
  again head isHead prev rest stops := by
    have put : secretAssignment.replacement head = head ++ text "[REDACTED]" := rfl
    rw [put, List.append_assoc]
    refine Rule.find_of_unique rfl isHead (by decide) (by decide) stops ?_
    intro w d s same accepted holds
    exact (secretAssignment_unique isHead accepted (by decide) holds same).symm

end Pairs

/-! ## All rules -/

/-- No private key is left in a text. -/
def NoPrivateKey (s : Text) : Prop := Finder.Clear privateKey none s

/-- **The last three rules have nothing more to do** with a text that has been redacted. -/
theorem redactText_rules (tables : CharTables) (value : Text) :
    Finder.Clear (databaseUrl tables).find none (redactText tables value) ∧
      Finder.Clear (bearerValue tables).find none (redactText tables value) ∧
        Finder.sub secretAssignment.find (redactText tables value) = redactText tables value := by
  have addresses := Finder.sub_substitutes (Rule.sound (databaseUrl tables))
    (Finder.sub privateKey value)
  have noAddress := databaseUrl_spares_databaseUrl.clear addresses (.inl rfl)
  have bearers := Finder.sub_substitutes (Rule.sound (bearerValue tables))
    (Finder.sub (databaseUrl tables).find (Finder.sub privateKey value))
  have noAddress' := bearerValue_spares_databaseUrl.clear (bearers.of_clear noAddress) (.inl rfl)
  have noBearer := bearerValue_spares_bearerValue.clear bearers (.inl rfl)
  have assignments := Finder.sub_substitutes (Rule.sound secretAssignment)
    (Finder.sub (bearerValue tables).find
      (Finder.sub (databaseUrl tables).find (Finder.sub privateKey value)))
  exact ⟨secretAssignment_spares_databaseUrl.clear (assignments.of_clear noAddress') (.inl rfl),
    secretAssignment_spares_bearerValue.clear (assignments.of_clear noBearer) (.inl rfl),
    secretAssignment_settles.subFrom assignments⟩

/-- A rule leaves no more dashes than there were. -/
theorem count_dash_sub (rule : Rule Nat) (absent : 45 ∉ rule.new) (s : Text) :
    (Finder.sub rule.find s).count 45 ≤ s.count 45 :=
  (Finder.sub_substitutes rule.sound s).count_le (Rule.count_find_le absent)

/-- The mark of a private key has dashes, and what is put for it has none. -/
theorem count_dash_privateKey (prev : Option Nat) (s : Text) (more : Nat × Text)
    (isFound : privateKey prev s = some more) : more.2.count 45 < (s.take more.1).count 45 := by
  obtain ⟨n, first, rfl⟩ := Option.map_eq_some_iff.mp isFound
  obtain ⟨w, ⟨rest, rfl⟩, accepted, rfl⟩ := Regex.mem_lengths.mp (List.mem_of_mem_head? first)
  obtain ⟨u, v, begins, -, rfl⟩ := accepted
  have marked := Regex.accepts_literal.mp begins
  rw [List.map_id] at marked
  have none : (text "[REDACTED_PRIVATE_KEY]").count 45 = 0 := by decide
  rw [none, List.take_left, marked, List.count_append]
  exact Nat.add_pos_left (by decide) _

/-- **A second redaction changes nothing** if and only if the first one has left no private
key. -/
theorem redactText_redactText_iff (value : Text) :
    redactText tables (redactText tables value) = redactText tables value ↔
      NoPrivateKey (redactText tables value) := by
  obtain ⟨noAddress, noBearer, assigned⟩ := redactText_rules tables value
  generalize redactText tables value = s at noAddress noBearer assigned ⊢
  constructor
  · intro same
    rcases (Finder.sub_substitutes privateKey_sound s).clear_or_count_lt count_dash_privateKey
      with clear | fewer
    · exact clear
    · have addresses := count_dash_sub (databaseUrl tables)
        (by decide : 45 ∉ text "[REDACTED_DATABASE_URL]") (Finder.sub privateKey s)
      have bearers := count_dash_sub (bearerValue tables)
        (by decide : 45 ∉ text "Bearer [REDACTED]")
        (Finder.sub (databaseUrl tables).find (Finder.sub privateKey s))
      have assignments := count_dash_sub secretAssignment
        (by decide : 45 ∉ text "[REDACTED]") (Finder.sub (bearerValue tables).find
          (Finder.sub (databaseUrl tables).find (Finder.sub privateKey s)))
      have lost : (redactText tables s).count 45 < s.count 45 :=
        ((assignments.trans bearers).trans addresses).trans_lt fewer
      rw [same] at lost
      exact absurd lost (lt_irrefl _)
  · intro noKey
    rw [redactText, Finder.Clear.sub noKey, noAddress.sub, noBearer.sub, assigned]

/-! ## Texts with nothing to redact -/

/-- The first two characters of all that is redacted, in lower case. -/
def openings : List Text := ["--", "po", "be", "pa", "se", "to", "au", "cs", "ma"].map text

/-- Nothing that is redacted begins anywhere in the text. -/
def Inert (s : Text) : Prop := s.IsChain fun c d => [foldLetter c, foldLetter d] ∉ openings

instance (s : Text) : Decidable (Inert s) := inferInstanceAs (Decidable (List.IsChain _ s))

variable {limit : Nat} {s : Text}

/-- A word that is redacted, at the beginning of an inert text. -/
theorem Inert.not_opening {w rest : Text} (inert : Inert s) (split : s = w ++ rest) :
    (w.map foldLetter).take 2 ∉ openings := by
  intro opening
  have two : ∀ opening ∈ openings, opening.length = 2 := by decide
  have long := two _ opening
  match w with
  | [] | [_] => simp at long
  | c :: d :: w =>
      subst split
      exact (List.isChain_cons_cons.mp inert).1 (by simpa using opening)

/-- A rule whose heads have such openings finds nothing in an inert text. -/
theorem Inert.clear {rule : Rule Nat}
    (opening : ∀ w, rule.head.Accepts w → (w.map foldLetter).take 2 ∈ openings)
    (inert : Inert s) (prev : Option Nat) : Finder.Clear rule.find prev s := by
  induction s generalizing prev with
  | nil => trivial
  | cons c s ih =>
      refine ⟨?_, ih inert.tail (some c)⟩
      rw [Rule.find_eq_none_iff]
      intro _ head d rest split accepted
      exact absurd (opening head accepted) (inert.not_opening split)

theorem Inert.noPrivateKey (inert : Inert s) (prev : Option Nat) :
    Finder.Clear privateKey prev s := by
  induction s generalizing prev with
  | nil => trivial
  | cons c s ih =>
      refine ⟨?_, ih inert.tail (some c)⟩
      rw [privateKey, Option.map_eq_none_iff, List.head?_eq_none_iff, List.eq_nil_iff_forall_not_mem]
      intro n tried
      obtain ⟨w, ⟨rest, split⟩, ⟨u, v, begins, -, rfl⟩, -⟩ := Regex.mem_lengths.mp tried
      have marked := Regex.accepts_literal.mp begins
      rw [List.map_id] at marked
      rw [List.append_assoc] at split
      refine inert.not_opening split.symm ?_
      rw [marked]
      decide

/-- **An inert text is left as it is.** -/
theorem redactText_of_inert (inert : Inert s) : redactText tables s = s := by
  have addresses : Finder.Clear (databaseUrl tables).find none s := by
    refine inert.clear (fun w accepted => ?_) none
    obtain ⟨scheme, rest, slashes, rfl, isScheme, -⟩ := accepts_databaseUrl accepted
    rw [List.map_append, isScheme, List.take_append_of_le_length (by decide)]
    decide
  have bearers : Finder.Clear (bearerValue tables).find none s := by
    refine inert.clear (fun w accepted => ?_) none
    obtain ⟨scheme, spaces, rfl, isScheme, -⟩ := accepts_bearerValue accepted
    rw [List.map_append, isScheme, List.take_append_of_le_length (by decide)]
    decide
  have assignments : Finder.Clear secretAssignment.find none s := by
    refine inert.clear (fun w accepted => ?_) none
    obtain ⟨name, sign, rfl, isName, -⟩ := accepts_secretAssignment accepted
    have names : ∀ name ∈ secretNames, 2 ≤ name.length ∧ name.take 2 ∈ openings := by decide
    obtain ⟨long, opening⟩ := names _ isName
    rwa [List.map_append, List.take_append_of_le_length long]
  rw [redactText, (inert.noPrivateKey none).sub, addresses.sub, bearers.sub, assignments.sub]

/-- No opening begins with the character. -/
def Quiet (c : Nat) : Prop := ∀ opening ∈ openings, opening.head? ≠ some (foldLetter c)

instance (c : Nat) : Decidable (Quiet c) := inferInstanceAs (Decidable (∀ _ ∈ _, _))

/-- Quiet characters can be put behind an inert text that ends with one. -/
theorem Inert.append {t : Text} (inert : Inert s) (last : ∀ c ∈ s.getLast?, Quiet c)
    (quiet : ∀ c ∈ t, Quiet c) : Inert (s ++ t) := by
  have apart : ∀ {c d}, Quiet c → [foldLetter c, foldLetter d] ∉ openings :=
    fun quiet opening => quiet _ opening rfl
  refine List.isChain_append.mpr ⟨inert, ?_, fun c isLast d _ => apart (last c isLast)⟩
  induction t with
  | nil => exact .nil
  | cons c t ih =>
      obtain ⟨first, rest⟩ := List.forall_mem_cons.mp quiet
      exact (ih rest).cons fun d _ => apart first

theorem quiet_digit {c : Nat} (digit : Json.isDigit c = true) : Quiet c := by
  have digits : ∀ c < 58, 48 ≤ c → Quiet c := by decide
  simp only [Json.isDigit, Bool.and_eq_true, decide_eq_true_eq] at digit
  exact digits c (by omega) digit.1

/-- The number of bytes that is put for them. -/
theorem inert_redactedBytes (length : Nat) : Inert (redactedBytes length) := by
  rw [redactedBytes, List.append_assoc]
  refine Inert.append (s := text "[REDACTED_BYTES:") (by decide) (by decide) ?_
  intro c member
  rcases List.mem_append.mp member with digit | bracket
  · exact quiet_digit (Json.isDigit_natText digit)
  · exact (by decide : ∀ c ∈ text "]", Quiet c) c bracket

/-! ## The cut -/

theorem cutText_of_le (short : s.length ≤ limit) : cutText limit s = s :=
  if_pos short

theorem sanitizeText_of_inert (inert : Inert s) (short : s.length ≤ limit) :
    sanitizeText tables limit s = s := by
  rw [sanitizeText, redactText_of_inert inert, cutText_of_le short]

/-- What is cut is too long again. -/
theorem length_cutText_lt (long : limit < s.length) : limit < (cutText limit s).length := by
  rw [cutText, if_neg (Nat.not_le.mpr long)]
  simp only [List.length_append, List.length_take]
  have dots : (text "...[TRUNCATED:").length = 14 := by decide
  omega

/-- Texts that are cut to the same text begin with the same characters, and are equally long. -/
theorem cutText_eq_iff {t : Text} (long : limit < s.length) (long' : limit < t.length) :
    cutText limit s = cutText limit t ↔ s.length = t.length ∧ s.take limit = t.take limit := by
  rw [cutText, cutText, if_neg (Nat.not_le.mpr long), if_neg (Nat.not_le.mpr long')]
  constructor
  · intro same
    have lengths : (s.take limit).length = (t.take limit).length := by
      rw [List.length_take, List.length_take]
      omega
    simp only [List.append_assoc] at same
    obtain ⟨front, back⟩ := List.append_inj same lengths
    have numbers := List.append_cancel_right (List.append_cancel_left back)
    have counts := Json.natText_injective numbers
    exact ⟨by omega, front⟩
  · rintro ⟨lengths, front⟩
    rw [lengths, front]

/-- A text that a second sanitising would not change: it is short enough and has no private key
any more, or it is cut, and what is cut is as long as before, once it has been redacted, and
begins in the same way. -/
def SettledText (tables : CharTables) (limit : Nat) (value : Text) : Prop :=
  let short := redactText tables value
  if short.length ≤ limit then NoPrivateKey short
  else
    let again := redactText tables (cutText limit short)
    again.length = short.length ∧ again.take limit = short.take limit

/-- **A text is sanitised to a fixed point** if and only if it is settled. -/
theorem sanitizeText_sanitizeText_iff (limit : Nat) (value : Text) :
    sanitizeText tables limit (sanitizeText tables limit value) = sanitizeText tables limit value ↔
      SettledText tables limit value := by
  unfold SettledText
  rw [show sanitizeText tables limit value = cutText limit (redactText tables value) from rfl]
  dsimp only
  split
  next short =>
    rw [cutText_of_le short, ← redactText_redactText_iff, sanitizeText]
    by_cases again : (redactText tables (redactText tables value)).length ≤ limit
    · rw [cutText_of_le again]
    · refine iff_of_false ?_ ?_
      · intro same
        have long := length_cutText_lt (Nat.not_le.mp again)
        rw [same] at long
        omega
      · intro same
        rw [same] at again
        exact again short
  next long =>
    have isLong := Nat.not_le.mp long
    rw [sanitizeText]
    by_cases again : (redactText tables (cutText limit (redactText tables value))).length ≤ limit
    · rw [cutText_of_le again]
      refine iff_of_false ?_ ?_
      · intro same
        have longer := length_cutText_lt isLong
        rw [← same] at longer
        omega
      · rintro ⟨lengths, -⟩
        omega
    · exact cutText_eq_iff (Nat.not_le.mp again) isLong

end OpsComposer.Services.Observability
