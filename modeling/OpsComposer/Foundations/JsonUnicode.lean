import OpsComposer.Foundations.JsonValues

/-!
# Reading JSON beyond ASCII

`json.dumps(value, ensure_ascii=False)` escapes the control characters, quotes
and backslashes only.  A dict of texts is read back from it
(`loads_dumpsTexts`).
-/

set_option autoImplicit false

namespace OpsComposer.Foundations.Json

/-- The members as they are written. -/
def membersText (fields : List (Text × Text)) : Text :=
  Text.join comma (fields.map fun field => quotedUnicode field.1 ++ colon :: quotedUnicode field.2)

/-- A dict of texts whose keys are in order, as it is written. -/
def dumpsTexts (fields : List (Text × Text)) : Text :=
  123 :: (membersText fields ++ [125])

/-- The texts as JSON values. -/
def ofTexts (fields : List (Text × Text)) : List (Text × Json) :=
  fields.map fun field => (field.1, .str field.2)

theorem scanString_escapeUnicode (c : Nat) (rest : Text) :
    scanString (escapeUnicode c ++ rest) =
      (scanString rest).map fun (s, rest) => (c :: s, rest) := by
  unfold escapeUnicode
  split
  · rename_i short found
    exact scanString_short (mem_shortEscapes found) rest
  · rename_i absent
    obtain ⟨notQuote, notBackslash⟩ := ne_of_not_short absent
    by_cases control : c < 32
    · rw [if_pos control]
      refine scanString_hex4 (by omega) ?_ rest
      simp only [isHighSurrogate, Bool.and_eq_false_iff, decide_eq_false_iff_not]
      omega
    · rw [if_neg control]
      exact scanString_plain notQuote notBackslash (by omega) rest

theorem scanString_quotedUnicode (s rest : Text) :
    scanString (s.flatMap escapeUnicode ++ quote :: rest) = some (s, rest) := by
  induction s with
  | nil => exact scanString_quote rest
  | cons c s ih =>
      rw [List.flatMap_cons, List.append_assoc, scanString_escapeUnicode, ih]
      rfl

theorem quotedUnicode_append (s rest : Text) :
    quotedUnicode s ++ rest = quote :: (s.flatMap escapeUnicode ++ quote :: rest) := by
  rw [quotedUnicode, List.cons_append, List.append_assoc, List.singleton_append]

theorem scanOnce_quotedUnicode (fuel : Nat) (s rest : Text) :
    scanOnce (fuel + 1) (quotedUnicode s ++ rest) = .ok (.str s, rest) := by
  rw [quotedUnicode_append, scanOnce.eq_def]
  dsimp only
  rw [if_pos rfl, scanString_quotedUnicode]

/-- Reading one member up to what follows its value. -/
theorem scanMembers_quotedUnicode (fuel : Nat) (before : List (Text × Json))
    (key value rest : Text) :
    scanMembers (fuel + 2) before (quotedUnicode key ++ colon :: quotedUnicode value ++ rest) =
      match expect 125 rest with
      | some rest => .ok (.obj (setMember before key (.str value)), rest)
      | none =>
          match expect comma rest with
          | some rest => scanMembers (fuel + 1) (setMember before key (.str value)) (skip rest)
          | none => .error .decodeError := by
  have visible : skip (quotedUnicode value ++ rest) = quotedUnicode value ++ rest := by
    rw [quotedUnicode_append]
    exact skip_cons (by decide) _
  rw [List.append_assoc, quotedUnicode_append, List.cons_append, scanMembers.eq_def]
  dsimp only
  rw [if_neg (not_not.mpr rfl), scanString_quotedUnicode]
  dsimp only
  rw [expect_self (by decide)]
  dsimp only
  rw [visible]
  exact scanOnce_quotedUnicode .. ▸ rfl

/-- The members begin with a quote. -/
theorem membersText_cons (field : Text × Text) (fields : List (Text × Text)) :
    ∃ rest, membersText (field :: fields) = quote :: rest := by
  rw [membersText, List.map_cons]
  by_cases last : (fields.map fun field => quotedUnicode field.1 ++ colon :: quotedUnicode field.2) = []
  · rw [last, Text.join_singleton]
    exact ⟨_, rfl⟩
  · rw [Text.join_cons comma _ last]
    exact ⟨_, rfl⟩

theorem length_membersText (fields : List (Text × Text)) :
    fields.length ≤ (membersText fields).length := by
  induction fields with
  | nil => exact Nat.zero_le _
  | cons field fields ih =>
      rw [membersText, List.map_cons]
      by_cases last : (fields.map fun field => quotedUnicode field.1 ++ colon :: quotedUnicode field.2) = []
      · rw [last, Text.join_singleton, List.map_eq_nil_iff.mp last]
        simp [quotedUnicode]
      · rw [Text.join_cons comma _ last, List.length_append, List.length_cons, List.length_cons]
        rw [membersText] at ih
        omega

/-- A run over the members. -/
theorem scanMembers_texts : ∀ (fields : List (Text × Text)), fields ≠ [] →
    ∀ (fuel : Nat) (before : List (Text × Json)) (rest : Text),
      ((before ++ ofTexts fields).map Prod.fst).Nodup → fields.length < fuel →
        scanMembers fuel before (membersText fields ++ 125 :: rest) =
          .ok (.obj (before ++ ofTexts fields), rest)
  | [], nonempty, _, _, _, _, _ => absurd rfl nonempty
  | (key, value) :: fields, _, fuel, before, rest, distinct, enough => by
      obtain ⟨fuel, rfl⟩ : ∃ less, fuel = less + 2 := by
        rw [List.length_cons] at enough
        exact ⟨fuel - 2, by omega⟩
      have fresh : key ∉ before.map Prod.fst := by
        rw [List.map_append, List.nodup_append] at distinct
        intro member
        exact distinct.2.2 key member key (List.mem_cons_self ..) rfl
      have step := scanMembers_quotedUnicode fuel before key value
      cases fields with
      | nil =>
          rw [membersText, List.map_singleton, Text.join_singleton, step, expect_self (by decide)]
          dsimp only
          rw [setMember_of_not_mem fresh]
          rfl
      | cons field others =>
          have more : ((field :: others).map fun field =>
              quotedUnicode field.1 ++ colon :: quotedUnicode field.2) ≠ [] := List.cons_ne_nil _ _
          have distinct' : ((before ++ [(key, Json.str value)] ++
              ofTexts (field :: others)).map Prod.fst).Nodup := by
            rwa [List.append_assoc]
          have following := scanMembers_texts (field :: others) (List.cons_ne_nil _ _) (fuel + 1)
            (before ++ [(key, .str value)]) rest distinct' (by
              rw [List.length_cons] at enough
              omega)
          have split : membersText ((key, value) :: field :: others) =
              quotedUnicode key ++ colon :: quotedUnicode value ++ comma :: membersText (field :: others) :=
            Text.join_cons comma _ more
          obtain ⟨tail, written⟩ := membersText_cons field others
          rw [split, List.append_assoc, List.cons_append, step, expect_other (by decide) (by decide),
            expect_self (by decide)]
          dsimp only
          rw [written, List.cons_append] at following ⊢
          rw [setMember_of_not_mem fresh, skip_cons (by decide), following, List.append_assoc]
          rfl

theorem dumpsUnicodeMembers_ofTexts (fields : List (Text × Text)) :
    dumpsUnicodeMembers (ofTexts fields) =
      some (fields.map fun field => (field.1, quotedUnicode field.2)) := by
  induction fields with
  | nil => rfl
  | cons field fields ih =>
      have rest : ofTexts (field :: fields) = (field.1, .str field.2) :: ofTexts fields := rfl
      rw [rest, dumpsUnicodeMembers, ih]
      rfl

/-- The writer, for a dict of texts whose keys are in order. -/
theorem dumpsUnicode_ofTexts {fields : List (Text × Text)}
    (sorted : (fields.map Prod.fst).Pairwise (· < ·)) :
    dumpsUnicode (.obj (ofTexts fields)) = some (dumpsTexts fields) := by
  have inOrder : (fields.map fun field => (field.1, quotedUnicode field.2)).Pairwise
      fun a b => a.1 ≤ b.1 := by
    rw [List.pairwise_map]
    exact (List.pairwise_map.mp sorted).imp le_of_lt
  rw [dumpsUnicode, dumpsUnicodeMembers_ofTexts, Option.map_some, sortedBy_of_pairwise inOrder,
    List.map_map]
  rfl

/-- **A dict of texts is read back**, with whatever characters in it. -/
theorem loads_dumpsTexts {fields : List (Text × Text)} (distinct : (fields.map Prod.fst).Nodup) :
    loads (dumpsTexts fields) = .ok (.obj (ofTexts fields)) := by
  cases fields with
  | nil => rfl
  | cons field fields =>
      have enough := length_membersText (field :: fields)
      have long : (dumpsTexts (field :: fields)).length =
          (membersText (field :: fields)).length + 2 := by
        rw [dumpsTexts, List.length_cons, List.length_append, List.length_singleton]
      have distinct' : (([] ++ ofTexts (field :: fields)).map Prod.fst).Nodup := by
        rw [List.nil_append, ofTexts, List.map_map]
        exact distinct
      have members := scanMembers_texts (field :: fields) (List.cons_ne_nil _ _)
        (dumpsTexts (field :: fields)).length [] [] distinct' (by omega)
      obtain ⟨tail, written⟩ := membersText_cons field fields
      have read : scanOnce ((dumpsTexts (field :: fields)).length + 1)
          (dumpsTexts (field :: fields)) = .ok (.obj (ofTexts (field :: fields)), []) := by
        conv_lhs => arg 2; rw [dumpsTexts]
        rw [scanOnce.eq_def]
        dsimp only
        rw [written, List.cons_append] at members ⊢
        rw [if_neg (by decide), if_pos rfl, expect_other (by decide) (by decide)]
        dsimp only
        rw [skip_cons (by decide), members]
        rfl
      have visible : skip (dumpsTexts (field :: fields)) = dumpsTexts (field :: fields) :=
        skip_cons (by decide) _
      have noMark : (dumpsTexts (field :: fields)).head? ≠ some 0xFEFF := by
        rw [dumpsTexts, List.head?_cons]
        decide
      rw [loads, if_neg noMark, visible, read]
      rfl

end OpsComposer.Foundations.Json
