import OpsComposer.Foundations.Json

/-!
# Reading back what was written

`Json.loads_dumps`: the reader inverts the writer on the values that JSON can
carry (`Json.Writable`).  The proof follows the reader: one lemma for each kind
of character of a string, one for numbers, and a mutual induction over values,
items and members, in which the length of the text pays for the fuel.
-/

set_option autoImplicit false

namespace OpsComposer.Foundations.Json

/-! ## Strings -/

variable {c d n : Nat} {rest : Text}

theorem hexValue?_hexDigit (small : d < 16) : hexValue? (hexDigit d) = some d := by
  have all : ∀ d < 16, hexValue? (hexDigit d) = some d := by decide
  exact all d small

theorem hex4Value?_hex4 (small : n < 65536) :
    hex4Value? (hexDigit (n / 4096)) (hexDigit (n / 256 % 16)) (hexDigit (n / 16 % 16))
      (hexDigit (n % 16)) = some n := by
  have value : ((n / 4096 * 16 + n / 256 % 16) * 16 + n / 16 % 16) * 16 + n % 16 = n := by omega
  rw [hex4Value?, hexValue?_hexDigit (by omega), hexValue?_hexDigit (by omega),
    hexValue?_hexDigit (by omega), hexValue?_hexDigit (by omega)]
  exact congrArg some value

theorem scanString_quote (rest : Text) : scanString (quote :: rest) = some ([], rest) := by
  rw [scanString.eq_def]
  exact if_pos rfl

theorem scanString_plain (notQuote : c ≠ quote) (notBackslash : c ≠ backslash)
    (printable : 32 ≤ c) (rest : Text) :
    scanString (c :: rest) = (scanString rest).map fun (s, rest) => (c :: s, rest) := by
  rw [scanString.eq_def]
  dsimp only
  rw [if_neg notQuote, if_pos notBackslash, if_neg (by omega)]

theorem scanString_short {short : Nat} (escape : (c, short) ∈ shortEscapes) (rest : Text) :
    scanString (backslash :: short :: rest) =
      (scanString rest).map fun (s, rest) => (c :: s, rest) := by
  rw [scanString.eq_def]
  dsimp only
  rw [if_neg (by decide), if_neg (by decide)]
  simp only [shortEscapes, List.mem_cons, Prod.mk.injEq, List.not_mem_nil, or_false] at escape
  rcases escape with ⟨rfl, rfl⟩ | ⟨rfl, rfl⟩ | ⟨rfl, rfl⟩ | ⟨rfl, rfl⟩ | ⟨rfl, rfl⟩ | ⟨rfl, rfl⟩ |
    ⟨rfl, rfl⟩ <;> rfl

theorem scanString_bad {a b : Nat} (bad : hex4Value? a b c d = none) (rest : Text) :
    scanString (backslash :: 117 :: a :: b :: c :: d :: rest) = none := by
  rw [scanString.eq_def]
  dsimp only
  rw [if_neg (by decide), if_neg (by decide)]
  simp only [bad]

theorem scanString_hex4 (small : n < 65536) (notHigh : isHighSurrogate n = false) (rest : Text) :
    scanString (backslash :: 117 :: (hex4 n ++ rest)) =
      (scanString rest).map fun (s, rest) => (n :: s, rest) := by
  rw [scanString.eq_def]
  dsimp only
  rw [if_neg (by decide), if_neg (by decide)]
  simp only [hex4, List.cons_append, List.nil_append, hex4Value?_hex4 small]
  split
  · rename_i a b c d rest'
    cases following : hex4Value? a b c d with
    | none =>
        dsimp only
        rw [show 92 = backslash from rfl, scanString_bad following]
        rfl
    | some low =>
        dsimp only
        rw [if_neg (by simp [notHigh])]
  · rfl

theorem scanString_pair {high low : Nat} (isHigh : isHighSurrogate high)
    (isLow : isLowSurrogate low) (rest : Text) :
    scanString (backslash :: 117 :: (hex4 high ++ backslash :: 117 :: (hex4 low ++ rest))) =
      (scanString rest).map fun (s, rest) =>
        ((0x10000 + (high - 0xD800) * 1024 + (low - 0xDC00)) :: s, rest) := by
  have highSmall : high < 65536 := by
    simp only [isHighSurrogate, Bool.and_eq_true, decide_eq_true_eq] at isHigh
    omega
  have lowSmall : low < 65536 := by
    simp only [isLowSurrogate, Bool.and_eq_true, decide_eq_true_eq] at isLow
    omega
  rw [scanString.eq_def]
  dsimp only
  rw [if_neg (by decide), if_neg (by decide)]
  simp only [hex4, List.cons_append, List.nil_append, hex4Value?_hex4 highSmall, backslash,
    hex4Value?_hex4 lowSmall]
  rw [if_pos ⟨isHigh, isLow⟩]

theorem mem_shortEscapes {short : Nat} (found : shortEscapes.lookup c = some short) :
    (c, short) ∈ shortEscapes := by
  obtain ⟨before, after, split, -⟩ := List.lookup_eq_some_iff.mp found
  rw [split]
  exact List.mem_append_right _ (List.mem_cons_self ..)

/-- A character without a short escape is neither the quote nor the backslash. -/
theorem ne_of_not_short (absent : shortEscapes.lookup c = none) : c ≠ quote ∧ c ≠ backslash := by
  constructor
  · rintro rfl
    exact absurd absent (by decide)
  · rintro rfl
    exact absurd absent (by decide)

/-- **The reader undoes the escape** of a character that is not a surrogate. -/
theorem scanString_escapeChar (valid : c.isValidChar) (rest : Text) :
    scanString (escapeChar c ++ rest) = (scanString rest).map fun (s, rest) => (c :: s, rest) := by
  unfold escapeChar
  split
  · rename_i short found
    exact scanString_short (mem_shortEscapes found) rest
  · rename_i absent
    obtain ⟨notQuote, notBackslash⟩ := ne_of_not_short absent
    by_cases printable : 32 ≤ c ∧ c ≤ 126
    · rw [if_pos printable]
      exact scanString_plain notQuote notBackslash printable.1 rest
    · rw [if_neg printable]
      by_cases basic : c < 0x10000
      · rw [if_pos basic]
        refine scanString_hex4 basic ?_ rest
        simp only [isHighSurrogate, Bool.and_eq_false_iff, decide_eq_false_iff_not]
        rcases valid with low | ⟨high, -⟩ <;> omega
      · have inRange : c < 0x110000 := by
          rcases valid with low | ⟨-, high⟩ <;> omega
        rw [if_neg basic, List.append_assoc]
        refine (scanString_pair ?_ ?_ rest).trans ?_
        · simp only [isHighSurrogate, Bool.and_eq_true, decide_eq_true_eq]
          omega
        · simp only [isLowSurrogate, Bool.and_eq_true, decide_eq_true_eq]
          omega
        · have joined : 0x10000 + (0xD800 + (c - 0x10000) / 1024 - 0xD800) * 1024 +
              (0xDC00 + (c - 0x10000) % 1024 - 0xDC00) = c := by omega
          rw [joined]

theorem scanString_quoted {s : Text} (valid : ∀ c ∈ s, c.isValidChar) (rest : Text) :
    scanString (s.flatMap escapeChar ++ quote :: rest) = some (s, rest) := by
  induction s with
  | nil => exact scanString_quote rest
  | cons c s ih =>
      rw [List.forall_mem_cons] at valid
      rw [List.flatMap_cons, List.append_assoc, scanString_escapeChar valid.1, ih valid.2]
      rfl

theorem hexDigit_ascii (small : d < 16) : hexDigit d < 128 := by
  unfold hexDigit
  split <;> omega

theorem hex4_ascii (small : n < 65536) : ∀ c ∈ hex4 n, c < 128 := by
  simp only [hex4, List.forall_mem_cons, List.not_mem_nil, false_implies, implies_true, and_true]
  exact ⟨hexDigit_ascii (by omega), hexDigit_ascii (by omega), hexDigit_ascii (by omega),
    hexDigit_ascii (by omega)⟩

/-- An escape is ASCII, and has twelve characters at most. -/
theorem escapeChar_ascii (valid : c.isValidChar) :
    (∀ d ∈ escapeChar c, d < 128) ∧ (escapeChar c).length ≤ 12 := by
  have inRange : c < 0x110000 := by
    rcases valid with low | ⟨-, high⟩ <;> omega
  unfold escapeChar
  split
  · rename_i short found
    have all : ∀ entry ∈ shortEscapes, entry.2 < 128 := by decide
    obtain ⟨before, after, split, -⟩ := List.lookup_eq_some_iff.mp found
    have ascii : short < 128 := all (c, short) (by rw [split]; simp)
    refine ⟨?_, by simp⟩
    simp only [List.forall_mem_cons, List.not_mem_nil, false_implies, implies_true, and_true]
    exact ⟨by decide, ascii⟩
  · by_cases printable : 32 ≤ c ∧ c ≤ 126
    · rw [if_pos printable]
      refine ⟨fun d member => ?_, by simp⟩
      rw [List.mem_singleton.mp member]
      omega
    · rw [if_neg printable]
      by_cases basic : c < 0x10000
      · rw [if_pos basic]
        refine ⟨?_, by simp [hex4]⟩
        simp only [List.forall_mem_cons]
        exact ⟨by decide, by decide, hex4_ascii basic⟩
      · rw [if_neg basic]
        refine ⟨?_, by simp [hex4]⟩
        simp only [List.forall_mem_append, List.forall_mem_cons]
        exact ⟨⟨by decide, by decide, hex4_ascii (by omega)⟩, by decide, by decide,
          hex4_ascii (by omega)⟩

/-- A string literal is ASCII, and not much longer than its string. -/
theorem quoted_ascii {s : Text} (valid : ∀ c ∈ s, c.isValidChar) :
    (∀ d ∈ quoted s, d < 128) ∧ (quoted s).length ≤ 12 * s.length + 2 := by
  have escaped : (∀ d ∈ s.flatMap escapeChar, d < 128) ∧
      (s.flatMap escapeChar).length ≤ 12 * s.length := by
    induction s with
    | nil => simp
    | cons c s ih =>
        rw [List.forall_mem_cons] at valid
        obtain ⟨ascii, short⟩ := escapeChar_ascii valid.1
        obtain ⟨asciiRest, shortRest⟩ := ih valid.2
        rw [List.flatMap_cons, List.forall_mem_append, List.length_append, List.length_cons]
        exact ⟨⟨ascii, asciiRest⟩, by omega⟩
  rw [quoted, List.forall_mem_cons, List.forall_mem_append, List.forall_mem_singleton,
    List.length_cons, List.length_append, List.length_singleton]
  exact ⟨⟨by decide, escaped.1, by decide⟩, by omega⟩

/-! ## Numbers -/

/-- What may follow a value that is written inside another one. -/
def Delimited (rest : Text) : Prop :=
  ∀ c ∈ rest.head?, c = comma ∨ c = 93 ∨ c = 125

theorem Delimited.takeWhile (delimited : Delimited rest) : rest.takeWhile isDigit = [] := by
  cases rest with
  | nil => rfl
  | cons c rest =>
      rcases delimited c rfl with rfl | rfl | rfl <;> rfl

theorem Delimited.dropWhile (delimited : Delimited rest) : rest.dropWhile isDigit = rest := by
  have split := List.takeWhile_append_dropWhile (p := isDigit) (l := rest)
  rwa [delimited.takeWhile, List.nil_append] at split

theorem Delimited.scanFraction (delimited : Delimited rest) : scanFraction rest = ([], rest) := by
  cases rest with
  | nil => rfl
  | cons c rest =>
      rcases delimited c rfl with rfl | rfl | rfl <;> rfl

theorem Delimited.scanExponent (delimited : Delimited rest) : scanExponent rest = ([], rest) := by
  cases rest with
  | nil => rfl
  | cons c rest =>
      rcases delimited c rfl with rfl | rfl | rfl <;> simp [Json.scanExponent, comma]

theorem isDigit_natText (member : c ∈ natText n) : isDigit c := by
  unfold natText at member
  split at member
  · obtain rfl := List.mem_singleton.mp member
    rfl
  · obtain ⟨d, there, rfl⟩ := List.mem_map.mp member
    have small : d < 10 := Nat.digits_lt_base (by omega) (List.mem_reverse.mp there)
    simp only [isDigit, Bool.and_eq_true, decide_eq_true_eq]
    omega

/-- A number is written in digits, without a leading zero. -/
theorem natText_cons (n : Nat) :
    ∃ c rest, natText n = c :: rest ∧ 48 ≤ c ∧ c ≤ 57 ∧ (c = 48 → rest = []) := by
  unfold natText
  split
  · exact ⟨48, [], rfl, by omega, by omega, fun _ => rfl⟩
  · rename_i nonzero
    have digits : Nat.digits 10 n ≠ [] := Nat.digits_ne_nil_iff_ne_zero.mpr nonzero
    have split := List.dropLast_append_getLast digits
    have small : (Nat.digits 10 n).getLast digits < 10 :=
      Nat.digits_lt_base (by omega) (List.getLast_mem digits)
    refine ⟨48 + (Nat.digits 10 n).getLast digits, (Nat.digits 10 n).dropLast.reverse.map (48 + ·),
      ?_, by omega, by omega, ?_⟩
    · conv_lhs => rw [← split, List.reverse_append, List.reverse_singleton,
        List.singleton_append, List.map_cons]
    · intro zero
      have leading := Nat.getLast_digit_ne_zero 10 nonzero
      omega

theorem ofDecimal_natText (n : Nat) : ofDecimal (natText n) = n := by
  unfold ofDecimal natText
  split
  · rename_i zero
    rw [zero]
    rfl
  · simp only [List.map_reverse, List.reverse_reverse, List.map_map]
    have same : (Nat.digits 10 n).map ((fun c => c - 48) ∘ (48 + ·)) = Nat.digits 10 n := by
      conv_rhs => rw [← List.map_id (Nat.digits 10 n)]
      refine List.map_congr_left fun d _ => ?_
      simp
    rw [same, Nat.ofDigits_digits]

theorem natText_injective {m : Nat} (same : natText n = natText m) : n = m := by
  rw [← ofDecimal_natText n, same, ofDecimal_natText]

theorem scanNatural_natText (n : Nat) (delimited : Delimited rest) :
    scanNatural (natText n ++ rest) = some (natText n, rest) := by
  obtain ⟨c, digits, written, -, -, leading⟩ := natText_cons n
  have all : ∀ d ∈ natText n, isDigit d = true := fun d member => isDigit_natText member
  have taken : (natText n ++ rest).takeWhile isDigit = natText n := by
    rw [List.takeWhile_append_of_pos all, delimited.takeWhile, List.append_nil]
  have dropped : (natText n ++ rest).dropWhile isDigit = rest := by
    rw [List.dropWhile_append_of_pos all, delimited.dropWhile]
  have first : isDigit c := all c (written ▸ List.mem_cons_self ..)
  rw [written] at taken dropped ⊢
  rw [List.cons_append] at taken dropped ⊢
  unfold scanNatural
  dsimp only
  by_cases zero : c = 48
  · rw [if_pos zero, leading zero, zero]
    rfl
  · rw [if_neg zero, if_pos first, taken, dropped]

theorem scanNumber_intText {n : Int} (short : (natText n.natAbs).length ≤ maxIntDigits)
    (delimited : Delimited rest) : scanNumber (intText n ++ rest) = .ok (.int n, rest) := by
  have small := Nat.not_lt.mpr short
  cases n with
  | ofNat n =>
      obtain ⟨c, digits, written, low, -, -⟩ := natText_cons n
      have sign : scanSign (natText n ++ rest) = ([], natText n ++ rest) := by
        rw [written]
        unfold scanSign
        split
        · rename_i same
          obtain rfl := (List.cons.inj same).1
          omega
        · rfl
      simp only [Int.ofNat_eq_natCast, Int.natAbs_natCast] at small
      simp only [scanNumber, intText, sign, scanNatural_natText n delimited,
        delimited.scanFraction, delimited.scanExponent, ofDecimal_natText, if_neg small]
      rfl
  | negSucc n =>
      have sign : scanSign (45 :: natText (n + 1) ++ rest) = ([45], natText (n + 1) ++ rest) := rfl
      simp only [Int.natAbs_negSucc, Nat.succ_eq_add_one] at small
      simp only [scanNumber, intText, sign, scanNatural_natText (n + 1) delimited,
        delimited.scanFraction, delimited.scanExponent, ofDecimal_natText, if_neg small]
      rfl

/-! ## Values -/

/-- The characters of a string that can be written as UTF-8. -/
abbrev Valid (s : Text) : Prop := ∀ c ∈ s, c.isValidChar

mutual

/-- The values that are read back as they are written: there are no floats in
them, no surrogates and no integers beyond the limit, and the members of a dict
are in the order of their keys. -/
def Writable : Json → Prop
  | .null => True
  | .bool _ => True
  | .int n => (natText n.natAbs).length ≤ maxIntDigits
  | .float _ => False
  | .str s => Valid s
  | .arr items => WritableItems items
  | .obj members => (members.map Prod.fst).Pairwise (· < ·) ∧ WritableMembers members

/-- The same for the items of a list. -/
def WritableItems : List Json → Prop
  | [] => True
  | item :: items => Writable item ∧ WritableItems items

/-- The same for the names and values of members. -/
def WritableMembers : List (Text × Json) → Prop
  | [] => True
  | (key, value) :: members => Valid key ∧ Writable value ∧ WritableMembers members

end

theorem map_fst_dumpsMembers (members : List (Text × Json)) :
    (dumpsMembers members).map Prod.fst = members.map Prod.fst := by
  induction members with
  | nil => rfl
  | cons member members ih => rw [dumpsMembers, List.map_cons, List.map_cons, ih]

/-- The text of one member. -/
def memberText (member : Text × Text) : Text := quoted member.1 ++ colon :: member.2

/-- The members of a dict that is in order, as they are written. -/
theorem dumps_obj {members : List (Text × Json)}
    (sorted : (members.map Prod.fst).Pairwise (· < ·)) :
    dumps (.obj members) =
      123 :: (Text.join comma ((dumpsMembers members).map memberText) ++ [125]) := by
  have inOrder : (dumpsMembers members).Pairwise fun a b => a.1 ≤ b.1 := by
    rw [← List.pairwise_map (f := Prod.fst) (R := (· ≤ ·)), map_fst_dumpsMembers]
    exact sorted.imp fun less => le_of_lt less
  rw [dumps, sortedBy_of_pairwise inOrder]
  rfl

/-- A value begins with a character of ASCII that is no white space and closes no bracket. -/
theorem dumps_cons {value : Json} (writable : Writable value) :
    ∃ c rest, dumps value = c :: rest ∧ c ∉ [32, 9, 10, 13] ∧ c ≠ 93 ∧ c < 128 := by
  cases value with
  | null => exact ⟨110, [117, 108, 108], rfl, by decide, by decide, by decide⟩
  | bool value =>
      cases value with
      | true => exact ⟨116, [114, 117, 101], rfl, by decide, by decide, by decide⟩
      | false => exact ⟨102, [97, 108, 115, 101], rfl, by decide, by decide, by decide⟩
  | int n =>
      cases n with
      | ofNat n =>
          obtain ⟨c, digits, written, low, high, -⟩ := natText_cons n
          refine ⟨c, digits, written, ?_, by omega, by omega⟩
          simp only [List.mem_cons, List.not_mem_nil, or_false]
          omega
      | negSucc n => exact ⟨45, natText (n + 1), rfl, by decide, by decide, by decide⟩
  | float literal => exact absurd writable (by simp [Writable])
  | str s => exact ⟨34, _, rfl, by decide, by decide, by decide⟩
  | arr items => exact ⟨91, _, rfl, by decide, by decide, by decide⟩
  | obj members => exact ⟨123, _, by rw [dumps], by decide, by decide, by decide⟩

theorem skip_cons {c : Nat} (visible : c ∉ [32, 9, 10, 13]) (rest : Text) :
    skip (c :: rest) = c :: rest := by
  rw [skip, List.dropWhile_cons_of_neg]
  simpa using visible

theorem expect_self {c : Nat} (visible : c ∉ [32, 9, 10, 13]) (rest : Text) :
    expect c (c :: rest) = some rest := by
  rw [expect, skip_cons visible]
  exact if_pos rfl

theorem expect_other {c d : Nat} (visible : d ∉ [32, 9, 10, 13]) (other : d ≠ c) (rest : Text) :
    expect c (d :: rest) = none := by
  rw [expect, skip_cons visible]
  exact if_neg other

theorem skip_dumps {value : Json} (writable : Writable value) (rest : Text) :
    skip (dumps value ++ rest) = dumps value ++ rest := by
  obtain ⟨c, tail, written, visible, -, -⟩ := dumps_cons writable
  rw [written, List.cons_append, skip_cons visible]

theorem setMember_of_not_mem {members : List (Text × Json)} {key : Text}
    (fresh : key ∉ members.map Prod.fst) (value : Json) :
    setMember members key value = members ++ [(key, value)] := by
  rw [setMember, if_neg fresh]

theorem join_dumpsItems {items : List Json} (nonempty : items ≠ [])
    (writable : WritableItems items) :
    ∃ c rest, Text.join comma (dumpsItems items) = c :: rest ∧ c ∉ [32, 9, 10, 13] ∧ c ≠ 93 := by
  cases items with
  | nil => exact absurd rfl nonempty
  | cons item items =>
      obtain ⟨c, rest, written, visible, opens, -⟩ := dumps_cons writable.1
      rw [dumpsItems, written]
      by_cases last : dumpsItems items = []
      · rw [last, Text.join_singleton]
        exact ⟨c, rest, rfl, visible, opens⟩
      · rw [Text.join_cons comma _ last]
        exact ⟨c, _, rfl, visible, opens⟩

theorem skip_join_dumpsItems {items : List Json} (nonempty : items ≠ [])
    (writable : WritableItems items) (rest : Text) :
    skip (Text.join comma (dumpsItems items) ++ rest) =
      Text.join comma (dumpsItems items) ++ rest := by
  obtain ⟨c, tail, written, visible, -⟩ := join_dumpsItems nonempty writable
  rw [written, List.cons_append, skip_cons visible]

theorem join_memberText (member : Text × Text) (members : List (Text × Text)) :
    ∃ rest, Text.join comma ((member :: members).map memberText) = quote :: rest := by
  rw [List.map_cons]
  by_cases last : members.map memberText = []
  · rw [last, Text.join_singleton]
    exact ⟨_, rfl⟩
  · rw [Text.join_cons comma _ last]
    exact ⟨_, rfl⟩

theorem delimited_cons {c : Nat} (delimiter : c = comma ∨ c = 93 ∨ c = 125) (rest : Text) :
    Delimited (c :: rest) := by
  intro c' same
  obtain rfl : c = c' := by simpa using same
  exact delimiter

theorem constants_find?_intText (n : Int) (rest : Text) :
    (constants.find? fun constant => constant.1.isPrefixOf (intText n ++ rest)) = none := by
  have differ : ∀ {mark c : Nat}, c ≤ 57 → 57 < mark → (mark == c) = false := by
    intro mark c small large
    simp only [beq_eq_false_iff_ne]
    omega
  cases n with
  | ofNat n =>
      obtain ⟨c, digits, written, low, high, -⟩ := natText_cons n
      have notMinus : (45 == c) = false := by
        simp only [beq_eq_false_iff_ne]
        omega
      simp [constants, text, intText, written, List.find?, List.isPrefixOf, differ high, notMinus]
  | negSucc n =>
      obtain ⟨c, digits, written, -, high, -⟩ := natText_cons (n + 1)
      simp [constants, text, intText, written, List.find?, List.isPrefixOf, differ high]

theorem scanOnce_intText {n : Int} (short : (natText n.natAbs).length ≤ maxIntDigits) (fuel : Nat)
    {rest : Text} (delimited : Delimited rest) :
    scanOnce (fuel + 1) (intText n ++ rest) = .ok (.int n, rest) := by
  obtain ⟨c, tail, written, notQuote, notBrace, notBracket⟩ : ∃ c tail, intText n = c :: tail ∧
      c ≠ quote ∧ c ≠ 123 ∧ c ≠ 91 := by
    cases n with
    | ofNat n =>
        obtain ⟨c, digits, written, low, high, -⟩ := natText_cons n
        refine ⟨c, digits, written, ?_, by omega, by omega⟩
        rw [quote]
        omega
    | negSucc n => exact ⟨45, natText (n + 1), rfl, by decide, by decide, by decide⟩
  have noConstant := constants_find?_intText n rest
  have number := scanNumber_intText short delimited
  rw [written, List.cons_append] at noConstant number ⊢
  rw [scanOnce.eq_def]
  dsimp only
  rw [if_neg notQuote, if_neg notBrace, if_neg notBracket, noConstant]
  exact number

/-- Reading one member up to what follows its value. -/
theorem scanMembers_memberText {key : Text} {value : Json} (valid : Valid key)
    (writable : Writable value) {fuel : Nat} {rest : Text}
    (read : scanOnce fuel (dumps value ++ rest) = .ok (value, rest)) (before : List (Text × Json)) :
    scanMembers (fuel + 1) before (memberText (key, dumps value) ++ rest) =
      match expect 125 rest with
      | some rest => .ok (.obj (setMember before key value), rest)
      | none =>
          match expect comma rest with
          | some rest => scanMembers fuel (setMember before key value) (skip rest)
          | none => .error .decodeError := by
  have written : memberText (key, dumps value) ++ rest =
      quote :: (key.flatMap escapeChar ++ quote :: (colon :: (dumps value ++ rest))) := by
    simp [memberText, quoted]
  rw [written, scanMembers.eq_def]
  dsimp only
  rw [if_neg (not_not.mpr rfl), scanString_quoted valid]
  dsimp only
  rw [expect_self (by decide)]
  dsimp only
  rw [skip_dumps writable]
  exact read ▸ rfl

mutual

/-- **What is written is read back**, whatever follows it. -/
theorem scanOnce_dumps : ∀ (value : Json), Writable value → ∀ (fuel : Nat) (rest : Text),
    (dumps value).length < fuel → Delimited rest →
      scanOnce fuel (dumps value ++ rest) = .ok (value, rest)
  | value, _, 0, _, enough, _ => absurd enough (Nat.not_lt_zero _)
  | .null, _, _ + 1, _, _, _ => rfl
  | .bool true, _, _ + 1, _, _, _ => rfl
  | .bool false, _, _ + 1, _, _, _ => rfl
  | .int _, writable, fuel + 1, _, _, delimited => scanOnce_intText writable fuel delimited
  | .float _, writable, _ + 1, _, _, _ => absurd writable (by simp [Writable])
  | .str s, writable, fuel + 1, rest, enough, delimited => by
      rw [dumps, quoted, List.cons_append, List.append_assoc, List.singleton_append,
        scanOnce.eq_def]
      dsimp only
      rw [if_pos rfl, scanString_quoted writable]
  | .arr items, writable, fuel + 1, rest, enough, delimited => by
      rw [dumps, List.length_cons, List.length_append, List.length_singleton] at enough
      rw [dumps, List.cons_append, List.append_assoc, List.singleton_append, scanOnce.eq_def]
      dsimp only
      rw [if_neg (by decide), if_neg (by decide), if_pos rfl]
      by_cases empty : items = []
      · subst empty
        rfl
      · have read := scanItems_dumps items writable empty fuel [] rest (by omega)
        obtain ⟨c, tail, written, visible, other⟩ := join_dumpsItems empty writable
        rw [written, List.cons_append] at read ⊢
        rw [expect_other visible other, skip_cons visible]
        exact read
  | .obj members, writable, fuel + 1, rest, enough, delimited => by
      rw [dumps_obj writable.1, List.length_cons, List.length_append, List.length_singleton]
        at enough
      rw [dumps_obj writable.1, List.cons_append, List.append_assoc, List.singleton_append,
        scanOnce.eq_def]
      dsimp only
      rw [if_neg (by decide), if_pos rfl]
      cases members with
      | nil => rfl
      | cons member members =>
          have distinct : (([] ++ member :: members).map Prod.fst).Nodup :=
            writable.1.imp fun less => ne_of_lt less
          have read := scanMembers_dumps (member :: members) writable.2 (List.cons_ne_nil _ _) fuel
            [] rest distinct (by omega)
          obtain ⟨tail, written⟩ := join_memberText (member.1, dumps member.2)
            (dumpsMembers members)
          rw [dumpsMembers, written, List.cons_append] at read ⊢
          rw [expect_other (by decide) (by decide), skip_cons (by decide)]
          exact read

theorem scanItems_dumps : ∀ (items : List Json), WritableItems items → items ≠ [] →
    ∀ (fuel : Nat) (before : List Json) (rest : Text),
      (Text.join comma (dumpsItems items)).length + 1 < fuel →
        scanItems fuel before (Text.join comma (dumpsItems items) ++ 93 :: rest) =
          .ok (.arr (before ++ items), rest)
  | [], _, nonempty, _, _, _, _ => absurd rfl nonempty
  | _ :: _, _, _, 0, _, _, enough => absurd enough (Nat.not_lt_zero _)
  | item :: items, writable, _, fuel + 1, before, rest, enough => by
      rw [dumpsItems] at enough ⊢
      by_cases last : items = []
      · subst last
        rw [dumpsItems, Text.join_singleton] at enough ⊢
        rw [scanItems, scanOnce_dumps item writable.1 fuel _ (by omega)
          (delimited_cons (.inr (.inl rfl)) rest)]
        dsimp only
        rw [expect_self (by decide)]
      · have more : dumpsItems items ≠ [] := by
          obtain ⟨item, items, rfl⟩ := List.exists_cons_of_ne_nil last
          exact List.cons_ne_nil _ _
        rw [Text.join_cons comma _ more] at enough ⊢
        rw [List.length_append, List.length_cons] at enough
        have others := scanItems_dumps items writable.2 last fuel (before ++ [item]) rest
          (by omega)
        rw [scanItems, List.append_assoc, List.cons_append,
          scanOnce_dumps item writable.1 fuel _ (by omega) (delimited_cons (.inl rfl) _)]
        dsimp only
        rw [expect_other (by decide) (by decide), expect_self (by decide)]
        dsimp only
        rw [skip_join_dumpsItems last writable.2, others, List.append_assoc, List.singleton_append]

theorem scanMembers_dumps : ∀ (members : List (Text × Json)), WritableMembers members →
    members ≠ [] → ∀ (fuel : Nat) (before : List (Text × Json)) (rest : Text),
      ((before ++ members).map Prod.fst).Nodup →
        (Text.join comma ((dumpsMembers members).map memberText)).length + 1 < fuel →
          scanMembers fuel before
              (Text.join comma ((dumpsMembers members).map memberText) ++ 125 :: rest) =
            .ok (.obj (before ++ members), rest)
  | [], _, nonempty, _, _, _, _, _ => absurd rfl nonempty
  | _ :: _, _, _, 0, _, _, _, enough => absurd enough (Nat.not_lt_zero _)
  | (key, value) :: members, writable, _, fuel + 1, before, rest, distinct, enough => by
      have fresh : key ∉ before.map Prod.fst := by
        rw [List.map_append, List.nodup_append] at distinct
        intro member
        exact distinct.2.2 key member key (List.mem_cons_self ..) rfl
      have short : (dumps value).length < (memberText (key, dumps value)).length := by
        simp only [memberText, List.length_append, List.length_cons]
        omega
      rw [dumpsMembers, List.map_cons] at enough ⊢
      by_cases last : members = []
      · subst last
        rw [dumpsMembers, List.map_nil, Text.join_singleton] at enough ⊢
        have read := scanOnce_dumps value writable.2.1 fuel (125 :: rest) (by omega)
          (delimited_cons (.inr (.inr rfl)) rest)
        rw [scanMembers_memberText writable.1 writable.2.1 read, expect_self (by decide)]
        dsimp only
        rw [setMember_of_not_mem fresh]
      · obtain ⟨member, others, rfl⟩ := List.exists_cons_of_ne_nil last
        have more : (dumpsMembers (member :: others)).map memberText ≠ [] := List.cons_ne_nil _ _
        have distinct' : (((before ++ [(key, value)]) ++ member :: others).map Prod.fst).Nodup := by
          rwa [List.append_assoc]
        rw [Text.join_cons comma _ more] at enough ⊢
        rw [List.length_append, List.length_cons] at enough
        have read := scanOnce_dumps value writable.2.1 fuel (comma ::
            (Text.join comma ((dumpsMembers (member :: others)).map memberText) ++ 125 :: rest))
          (by omega) (delimited_cons (.inl rfl) _)
        have following := scanMembers_dumps (member :: others) writable.2.2 last fuel
          (before ++ [(key, value)]) rest distinct' (by omega)
        rw [List.append_assoc, List.cons_append,
          scanMembers_memberText writable.1 writable.2.1 read,
          expect_other (by decide) (by decide), expect_self (by decide)]
        dsimp only
        obtain ⟨tail, written⟩ := join_memberText (member.1, dumps member.2)
          (dumpsMembers others)
        rw [dumpsMembers, written, List.cons_append] at following ⊢
        rw [setMember_of_not_mem fresh, skip_cons (by decide), following, List.append_assoc,
          List.singleton_append]

end

/-- **`json.loads` undoes `json.dumps`.** -/
theorem loads_dumps {value : Json} (writable : Writable value) :
    loads (dumps value) = .ok value := by
  obtain ⟨c, rest, written, -, -, ascii⟩ := dumps_cons writable
  have read := scanOnce_dumps value writable ((dumps value).length + 1) [] (Nat.lt_succ_self _)
    (fun _ none => absurd none (by simp))
  have noMark : (dumps value).head? ≠ some 0xFEFF := by
    rw [written, List.head?_cons]
    intro mark
    have same := Option.some.inj mark
    omega
  rw [List.append_nil] at read
  have start := skip_dumps writable []
  rw [List.append_nil] at start
  rw [loads, if_neg noMark, start, read]
  rfl

end OpsComposer.Foundations.Json
