import Mathlib.Data.Nat.Digits.Lemmas
import OpsComposer.Foundations.Text

/-!
# JSON

`json.dumps(value, sort_keys=True, separators=(",", ":"))` and `json.loads(s)`.

* `Json` — the values; a `dict` is a list of members in insertion order;
* `Json.dumps` — the writer, which escapes everything outside of ASCII;
* `Json.loads` — the reader, with the escapes, the pairs of surrogates and the
  limit on the digits of an integer.
-/

set_option autoImplicit false

namespace OpsComposer.Foundations

/-- A JSON value. -/
inductive Json where
  | null
  | bool (value : Bool)
  | int (value : Int)
  /-- A float, by a literal for it. -/
  | float (literal : Text)
  | str (value : Text)
  | arr (items : List Json)
  | obj (members : List (Text × Json))
  deriving Repr

namespace Json

/-- Why `json.loads` fails: the text is no JSON, or an integer in it has too many digits. -/
inductive Failure where
  | decodeError
  | tooManyDigits
  deriving DecidableEq, Repr

/-! ## Characters -/

/-- The quotation mark. -/
def quote : Nat := 34

/-- The backslash. -/
def backslash : Nat := 92

/-- The comma. -/
def comma : Nat := 44

/-- The colon. -/
def colon : Nat := 58

/-- A digit to the base 16. -/
def hexDigit (d : Nat) : Nat := if d < 10 then 48 + d else 87 + d

/-- The value of a digit to the base 16. -/
def hexValue? (c : Nat) : Option Nat :=
  if 48 ≤ c ∧ c ≤ 57 then some (c - 48)
  else if 97 ≤ c ∧ c ≤ 102 then some (c - 87)
  else if 65 ≤ c ∧ c ≤ 70 then some (c - 55)
  else none

/-- A number below `2^16` in four digits. -/
def hex4 (n : Nat) : Text :=
  [hexDigit (n / 4096), hexDigit (n / 256 % 16), hexDigit (n / 16 % 16), hexDigit (n % 16)]

/-- The value of four hexadecimal digits. -/
def hex4Value? (a b c d : Nat) : Option Nat := do
  let a ← hexValue? a
  let b ← hexValue? b
  let c ← hexValue? c
  let d ← hexValue? d
  return ((a * 16 + b) * 16 + c) * 16 + d

/-- The first half of a surrogate pair. -/
def isHighSurrogate (c : Nat) : Bool := 0xD800 ≤ c && c ≤ 0xDBFF

/-- The second half of a surrogate pair. -/
def isLowSurrogate (c : Nat) : Bool := 0xDC00 ≤ c && c ≤ 0xDFFF

/-- The escapes of one character, by the character and by what follows the backslash. -/
def shortEscapes : List (Nat × Nat) :=
  [(34, 34), (92, 92), (10, 110), (13, 114), (9, 116), (12, 102), (8, 98)]

/-! ## Writing -/

/-- One character of a string, as `ensure_ascii` writes it. -/
def escapeChar (c : Nat) : Text :=
  match shortEscapes.lookup c with
  | some short => [backslash, short]
  | none =>
      if 32 ≤ c ∧ c ≤ 126 then [c]
      else if c < 0x10000 then backslash :: 117 :: hex4 c
      else
        (backslash :: 117 :: hex4 (0xD800 + (c - 0x10000) / 1024)) ++
          (backslash :: 117 :: hex4 (0xDC00 + (c - 0x10000) % 1024))

/-- A string literal. -/
def quoted (s : Text) : Text := quote :: (s.flatMap escapeChar ++ [quote])

/-- A natural number in decimal digits. -/
def natText (n : Nat) : Text :=
  if n = 0 then [48] else (Nat.digits 10 n).reverse.map (48 + ·)

/-- An integer in decimal digits. -/
def intText : Int → Text
  | .ofNat n => natText n
  | .negSucc n => 45 :: natText (n + 1)

mutual

/-- `json.dumps(value, sort_keys=True, separators=(",", ":"))`. -/
def dumps : Json → Text
  | .null => text "null"
  | .bool true => text "true"
  | .bool false => text "false"
  | .int n => intText n
  | .float literal => literal
  | .str s => quoted s
  | .arr items => 91 :: (Text.join comma (dumpsItems items) ++ [93])
  | .obj members =>
      123 :: (Text.join comma ((sortedBy Prod.fst (dumpsMembers members)).map fun member =>
        quoted member.1 ++ colon :: member.2) ++ [125])

/-- The items of a list, each written. -/
def dumpsItems : List Json → List Text
  | [] => []
  | item :: items => dumps item :: dumpsItems items

/-- The members of an object, each with its value written. -/
def dumpsMembers : List (Text × Json) → List (Text × Text)
  | [] => []
  | (key, value) :: members => (key, dumps value) :: dumpsMembers members

end

/-! ## Reading -/

/-- What follows the white space. -/
def skip (s : Text) : Text := s.dropWhile fun c => [32, 9, 10, 13].contains c

/-- A string, from behind its opening quote, and what follows it. -/
def scanString : Text → Option (Text × Text)
  | [] => none
  | c :: rest =>
      if c = quote then some ([], rest)
      else if c ≠ backslash then
        if c < 32 then none
        else (scanString rest).map fun (s, rest) => (c :: s, rest)
      else
        match rest with
        | 117 :: a :: b :: c :: d :: rest =>
            match hex4Value? a b c d with
            | none => none
            | some high =>
                match rest with
                | 92 :: 117 :: a' :: b' :: c' :: d' :: rest' =>
                    match hex4Value? a' b' c' d' with
                    | none => none
                    | some low =>
                        if isHighSurrogate high ∧ isLowSurrogate low then
                          (scanString rest').map fun (s, rest) =>
                            ((0x10000 + (high - 0xD800) * 1024 + (low - 0xDC00)) :: s, rest)
                        else
                          (scanString (92 :: 117 :: a' :: b' :: c' :: d' :: rest')).map
                            fun (s, rest) => (high :: s, rest)
                | rest => (scanString rest).map fun (s, rest) => (high :: s, rest)
        | short :: rest =>
            match ((47, 47) :: shortEscapes).find? fun entry => entry.2 == short with
            | none => none
            | some (c, _) => (scanString rest).map fun (s, rest) => (c :: s, rest)
        | [] => none

/-- Python's limit on the digits of an integer literal. -/
def maxIntDigits : Nat := 4300

/-- A digit of ASCII. -/
def isDigit (c : Nat) : Bool := 48 ≤ c && c ≤ 57

/-- The number with the given digits. -/
def ofDecimal (digits : Text) : Nat := Nat.ofDigits 10 (digits.reverse.map fun c => c - 48)

/-- The fraction of a number, if there is one, and what follows. -/
def scanFraction (s : Text) : Text × Text :=
  match s with
  | 46 :: rest =>
      if rest.takeWhile isDigit = [] then ([], s)
      else (46 :: rest.takeWhile isDigit, rest.dropWhile isDigit)
  | _ => ([], s)

/-- The exponent of a number, if there is one, and what follows. -/
def scanExponent (s : Text) : Text × Text :=
  match s with
  | e :: rest =>
      let sign := (rest.take 1).filter fun c => c == 43 || c == 45
      let rest := rest.drop sign.length
      if (e = 101 ∨ e = 69) ∧ rest.takeWhile isDigit ≠ [] then
        (e :: sign ++ rest.takeWhile isDigit, rest.dropWhile isDigit)
      else ([], s)
  | [] => ([], [])

/-- A number without its sign, and what follows it. -/
def scanNatural (s : Text) : Option (Text × Text) :=
  match s with
  | c :: rest =>
      if c = 48 then some ([48], rest)
      else if isDigit c then some (s.takeWhile isDigit, s.dropWhile isDigit)
      else none
  | [] => none

/-- The sign of a number, and what follows it. -/
def scanSign (s : Text) : Text × Text :=
  match s with
  | 45 :: rest => ([45], rest)
  | _ => ([], s)

/-- A number, and what follows it. -/
def scanNumber (s : Text) : Except Failure (Json × Text) :=
  match scanNatural (scanSign s).2 with
  | none => .error .decodeError
  | some (digits, rest) =>
      let fraction := scanFraction rest
      let exponent := scanExponent fraction.2
      if fraction.1 = [] ∧ exponent.1 = [] then
        if maxIntDigits < digits.length then .error .tooManyDigits
        else .ok (.int (if (scanSign s).1 = [] then ofDecimal digits else -ofDecimal digits), rest)
      else .ok (.float ((scanSign s).1 ++ digits ++ fraction.1 ++ exponent.1), exponent.2)

/-- The constants. -/
def constants : List (Text × Json) :=
  [(text "null", .null), (text "true", .bool true), (text "false", .bool false),
    (text "NaN", .float (text "NaN")), (text "Infinity", .float (text "Infinity")),
    (text "-Infinity", .float (text "-Infinity"))]

/-- A dict with one member set. -/
def setMember (members : List (Text × Json)) (key : Text) (value : Json) : List (Text × Json) :=
  if key ∈ members.map Prod.fst then
    members.map fun member => if member.1 = key then (key, value) else member
  else members ++ [(key, value)]

/-- What follows a character that has to come next, after white space. -/
def expect (c : Nat) (s : Text) : Option Text :=
  match skip s with
  | d :: rest => if d = c then some rest else none
  | [] => none

mutual

/-- `scan_once`: the value at the beginning of a text, and what follows it.  The
fuel bounds the nesting and the number of items. -/
def scanOnce : Nat → Text → Except Failure (Json × Text)
  | 0, _ => .error .decodeError
  | fuel + 1, s =>
      match s with
      | [] => .error .decodeError
      | c :: rest =>
          if c = quote then
            match scanString rest with
            | none => .error .decodeError
            | some (s, rest) => .ok (.str s, rest)
          else if c = 123 then
            match expect 125 rest with
            | some rest => .ok (.obj [], rest)
            | none => scanMembers fuel [] (skip rest)
          else if c = 91 then
            match expect 93 rest with
            | some rest => .ok (.arr [], rest)
            | none => scanItems fuel [] (skip rest)
          else
            match constants.find? fun constant => constant.1.isPrefixOf s with
            | some (name, value) => .ok (value, s.drop name.length)
            | none => scanNumber s

/-- The members of an object, from the key of the next one. -/
def scanMembers : Nat → List (Text × Json) → Text → Except Failure (Json × Text)
  | 0, _, _ => .error .decodeError
  | fuel + 1, members, s =>
      match s with
      | [] => .error .decodeError
      | c :: rest =>
          if c ≠ quote then .error .decodeError
          else
            match scanString rest with
            | none => .error .decodeError
            | some (key, rest) =>
                match expect colon rest with
                | none => .error .decodeError
                | some rest =>
                    match scanOnce fuel (skip rest) with
                    | .error failure => .error failure
                    | .ok (value, rest) =>
                        match expect 125 rest with
                        | some rest => .ok (.obj (setMember members key value), rest)
                        | none =>
                            match expect comma rest with
                            | some rest =>
                                scanMembers fuel (setMember members key value) (skip rest)
                            | none => .error .decodeError

/-- The items of an array, from the next one. -/
def scanItems : Nat → List Json → Text → Except Failure (Json × Text)
  | 0, _, _ => .error .decodeError
  | fuel + 1, items, s =>
      match scanOnce fuel s with
      | .error failure => .error failure
      | .ok (item, rest) =>
          match expect 93 rest with
          | some rest => .ok (.arr (items ++ [item]), rest)
          | none =>
              match expect comma rest with
              | some rest => scanItems fuel (items ++ [item]) (skip rest)
              | none => .error .decodeError

end

/-- `json.loads(s)`. -/
def loads (s : Text) : Except Failure Json :=
  if s.head? = some 0xFEFF then .error .decodeError
  else
    match scanOnce (s.length + 1) (skip s) with
    | .error failure => .error failure
    | .ok (value, rest) => if skip rest = [] then .ok value else .error .decodeError

end Json

end OpsComposer.Foundations
