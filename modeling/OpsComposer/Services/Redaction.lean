import OpsComposer.Foundations.Casefold
import OpsComposer.Foundations.JsonDicts
import OpsComposer.Foundations.Replacing

/-!
# Redaction

`redact_secrets` of `services/crypto.py` and `_sanitize` of `worker.py`: every
known secret is replaced in a text, as it is and as a shell, a URL or JSON would
write it, and an event of the runner is rebuilt from redacted texts before it is
stored.

The variants of a secret are a set, which is gone through in an order that the
program does not fix: `iterate` is what comes out of a set with given elements.
Nothing is returned where a secret cannot be encoded, which `quote` needs.
-/

set_option autoImplicit false

namespace OpsComposer.Services.Redaction

open Foundations

/-! ## Variants of a secret -/

/-- `\w` for one ASCII character. -/
def isWord (c : Nat) : Bool :=
  (48 ≤ c && c ≤ 57) || (65 ≤ c && c ≤ 90) || c == 95 || (97 ≤ c && c ≤ 122)

/-- `shlex.quote(s)`. -/
def shellQuote (s : Text) : Text :=
  if s = [] then text "''"
  else if s.all fun c => isWord c || (text "@%+=:,./-").contains c then s
  else 39 :: (s.flatMap (fun c => if c = 39 then text "'\"'\"'" else [c]) ++ [39])

/-- A hexadecimal digit in a URL. -/
def upperHex (d : Nat) : Nat := if d < 10 then 48 + d else 55 + d

/-- `quote(s, safe=safe)`. -/
def urlQuote (safe s : Text) : Option Text :=
  s.encode.map fun bytes => bytes.flatMap fun byte =>
    let c := byte.toNat
    if isWord c || (text ".-~").contains c || safe.contains c then [c]
    else [37, upperHex (c / 16), upperHex (c % 16)]

/-- `quote_plus(s, safe="")`. -/
def urlQuotePlus (s : Text) : Option Text :=
  if 32 ∈ s then (urlQuote [32] s).map (Text.replaceChar 32 43) else urlQuote [] s

example : urlQuotePlus (text "a b/~") = some (text "a+b%2F~") := by decide

/-- `json.dumps(s)[1:-1]`. -/
def jsonBody (s : Text) : Text := ((Json.quoted s).drop 1).dropLast

/-- `sorted(items, key=len, reverse=True)`. -/
def longestFirst (items : List Text) : List Text :=
  items.insertionSort fun a b => b.length ≤ a.length

/-- What a secret is replaced by. -/
def redactedWord : Text := text "[REDACTED]"

section Redact

variable (iterate : List Text → List Text)

/-- The set of the variants of a secret, in the order of its iteration. -/
def variants (secret : Text) : Option (List Text) := do
  let url ← urlQuote [] secret
  let plus ← urlQuotePlus secret
  return iterate [secret, shellQuote secret, url, plus, jsonBody secret]

/-- `redacted.replace(variant, "[REDACTED]")`. -/
def redactVariant (redacted variant : Text) : Text :=
  Replacing.replace variant redactedWord redacted

/-- One iteration of the loop over the secrets. -/
def redactSecret (redacted secret : Text) : Option Text := do
  let all ← variants iterate secret
  return (longestFirst (all.filter (· ≠ []))).foldl redactVariant redacted

/-- `redact_secrets`: the longest secret first. -/
def redactSecrets (value : Text) (secrets : List Text) : Option Text :=
  (longestFirst (secrets.filter (· ≠ []))).foldlM (redactSecret iterate) value

end Redact

/-! ## Events -/

/-- A value of an event.  A key of a dict is given by its `str()`, and so is a
value of any other type; the scalars are `None` and the booleans and numbers. -/
inductive EventValue where
  | str (value : Text)
  | dict (items : List (Text × EventValue))
  | list (items : List EventValue)
  | scalar (value : Option (Bool ⊕ Int ⊕ Text))
  | other (form : Text)

/-- The parts of a key that make it sensitive. -/
def sensitiveKeys : List Text :=
  ["password", "secret", "private_key", "privatekey", "passphrase"].map text

/-- A key under which everything is redacted. -/
def isSensitiveKey (key : Text) : Bool :=
  sensitiveKeys.any fun token => decide (token <:+: key.casefold)

section Sanitize

variable (iterate : List Text → List Text) (secrets : List Text)

mutual

/-- `_sanitize(value, secrets)`. -/
def sanitize : EventValue → Option EventValue
  | .str value => (redactSecrets iterate value secrets).map .str
  | .dict items => (sanitizeItems items).map fun images => .dict (Json.merge [] images)
  | .list items => (sanitizeAll items).map .list
  | .scalar value => some (.scalar value)
  | .other form => some (.str form)

/-- The items that a dict is made of; a later one takes the place of an earlier
one with the same key. -/
def sanitizeItems : List (Text × EventValue) → Option (List (Text × EventValue))
  | [] => some []
  | (key, item) :: items => do
      let image ← (if isSensitiveKey key then some (.str redactedWord) else sanitize item)
      let images ← sanitizeItems items
      return (key, image) :: images

/-- The same for the items of a list. -/
def sanitizeAll : List EventValue → Option (List EventValue)
  | [] => some []
  | item :: items => do
      let image ← sanitize item
      let images ← sanitizeAll items
      return image :: images

end

end Sanitize

mutual

/-- The texts of a value, its keys included. -/
def strings : EventValue → List Text
  | .str value => [value]
  | .dict items => stringsOfItems items
  | .list items => stringsOfAll items
  | .scalar _ => []
  | .other _ => []

/-- The keys of the members, and the texts in their values. -/
def stringsOfItems : List (Text × EventValue) → List Text
  | [] => []
  | (key, item) :: items => key :: (strings item ++ stringsOfItems items)

/-- The texts in the items of a list. -/
def stringsOfAll : List EventValue → List Text
  | [] => []
  | item :: items => strings item ++ stringsOfAll items

end

end OpsComposer.Services.Redaction
