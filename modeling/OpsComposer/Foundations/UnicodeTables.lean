import OpsComposer.Foundations.Text

/-!
# Character tables

What a `str` knows of its characters comes from the Unicode database of the
interpreter, which grows with its versions.  `CharTables` are two of its tables;
on ASCII they are known, and outside of it they are arbitrary.

* `CharTables.upperText` — `s.upper()`, character by character;
* `Text.ascii?` — `s.encode("ascii")`;
* `latin1` — tables that are those of the database on the first 256 characters.
-/

set_option autoImplicit false

namespace OpsComposer.Foundations

/-- An ASCII letter or digit. -/
def isAsciiAlnum (c : Nat) : Bool :=
  (48 ≤ c && c ≤ 57) || (65 ≤ c && c ≤ 90) || (97 ≤ c && c ≤ 122)

/-- An ASCII letter in upper case, and every other character as it is. -/
def asciiUpper (c : Nat) : Nat := if 97 ≤ c ∧ c ≤ 122 then c - 32 else c

/-- Two tables of the Unicode database. -/
structure CharTables where
  /-- `chr(c).upper()`. -/
  upper : Nat → Text
  /-- `chr(c).isalnum()`. -/
  isAlnum : Nat → Bool
  upper_ascii : ∀ c < 128, upper c = [asciiUpper c]
  isAlnum_ascii : ∀ c < 128, isAlnum c = isAsciiAlnum c

/-- `s.upper()`. -/
def CharTables.upperText (tables : CharTables) (s : Text) : Text := s.flatMap tables.upper

theorem asciiUpper_lt {c : Nat} (ascii : c < 128) : asciiUpper c < 128 := by
  unfold asciiUpper
  split <;> omega

/-- On ASCII, a text is put into upper case one character at a time. -/
theorem CharTables.upperText_ascii (tables : CharTables) {s : Text} (ascii : ∀ c ∈ s, c < 128) :
    tables.upperText s = s.map asciiUpper := by
  induction s with
  | nil => rfl
  | cons c s ih =>
      obtain ⟨first, rest⟩ := List.forall_mem_cons.mp ascii
      rw [CharTables.upperText, List.flatMap_cons, tables.upper_ascii c first]
      exact congrArg (asciiUpper c :: ·) (ih rest)

namespace Text

/-- `s.encode("ascii")`. -/
def ascii? (s : Text) : Option Bytes :=
  if ∀ c ∈ s, c < 128 then some (s.map UInt8.ofNat) else none

theorem ascii?_of_ascii {s : Text} (ascii : ∀ c ∈ s, c < 128) :
    ascii? s = some (s.map UInt8.ofNat) := if_pos ascii

theorem isSome_ascii? {s : Text} : (ascii? s).isSome ↔ ∀ c ∈ s, c < 128 := by
  unfold ascii?
  split <;> simp_all

end Text

/-! ## Latin-1 -/

/-- Upper case in Latin-1; three of its letters leave it. -/
def latin1Upper (c : Nat) : Text :=
  if c < 128 then [asciiUpper c]
  else if c = 181 then [924]
  else if c = 223 then [83, 83]
  else if c = 255 then [376]
  else if 224 ≤ c ∧ c ≤ 254 ∧ c ≠ 247 then [c - 32]
  else [c]

/-- Letters and digits of Latin-1, and what it has in upper case outside of it. -/
def latin1IsAlnum (c : Nat) : Bool :=
  if c < 128 then isAsciiAlnum c
  else [170, 178, 179, 181, 185, 186, 188, 189, 190, 376, 924].contains c ||
    (192 ≤ c && c ≤ 255 && c != 215 && c != 247)

theorem latin1Upper_ascii : ∀ c < 128, latin1Upper c = [asciiUpper c] :=
  fun _ ascii => if_pos ascii

theorem latin1IsAlnum_ascii : ∀ c < 128, latin1IsAlnum c = isAsciiAlnum c :=
  fun _ ascii => if_pos ascii

/-- The tables on Latin-1. -/
def latin1 : CharTables where
  upper := latin1Upper
  isAlnum := latin1IsAlnum
  upper_ascii := latin1Upper_ascii
  isAlnum_ascii := latin1IsAlnum_ascii

end OpsComposer.Foundations
