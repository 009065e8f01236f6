import OpsComposer.Foundations.Casefold
import OpsComposer.Foundations.JsonCompact
import OpsComposer.Foundations.Substitution
import OpsComposer.Foundations.UnicodeTables

/-!
# Sanitised metadata

`observability.py`: what is logged, and what the audit trail keeps, goes through
`sanitize_metadata`.  Texts are searched for secrets with four regular expressions
and cut, dicts and lists are cut after a hundred items and below the fifth level,
values under sensitive keys are dropped, and a result that is too large is replaced
by a note of its size.

A metadata value is a finite tree, so that the check for cycles never applies.  What
is not a JSON value is given by what the program reads of it.
-/

set_option autoImplicit false

namespace OpsComposer.Services.Observability

open Foundations

/-! ## Patterns -/

/-- A character in lower case, as `re.IGNORECASE` compares it with an ASCII letter: four
characters outside of ASCII are taken for one. -/
def foldLetter (c : Nat) : Nat :=
  if 65 ≤ c ∧ c ≤ 90 then c + 32
  else if c = 304 ∨ c = 305 then 105
  else if c = 383 then 115
  else if c = 8490 then 107
  else c

/-- A word of a pattern with `(?i)`. -/
def word (letters : String) : Regex Nat := .literal foldLetter (text letters)

/-- A word of a pattern without it. -/
def exactly (letters : String) : Regex Nat := .literal id (text letters)

/-- `[a-z0-9…]` with `(?i)`. -/
def isAlnumOr (marks : String) (c : Nat) : Bool :=
  isAsciiAlnum (foldLetter c) || (text marks).contains c

/-- `[^\s…]`. -/
def isVisibleBut (marks : String) (c : Nat) : Bool :=
  !(Text.isSpace c) && !((text marks).contains c)

variable (tables : CharTables)

/-- `\b` in front of a letter. -/
def atWord (prev : Option Nat) : Bool :=
  !(prev.any fun c => tables.isAlnum c || c == 95)

/-- `_PRIVATE_KEY`. -/
def privateKeyPattern : Regex Nat :=
  .seq (exactly "-----BEGIN ") (.seq (.many (· != 45)) (.seq (exactly "PRIVATE KEY-----")
    (.seq (.lazily fun _ => true)
      (.seq (exactly "-----END ") (.seq (.many (· != 45)) (exactly "PRIVATE KEY-----"))))))

/-- `_PRIVATE_KEY`, with what it is replaced by. -/
def privateKey : Finder Nat := fun _ s =>
  (privateKeyPattern.lengths s).head?.map fun n => (n, text "[REDACTED_PRIVATE_KEY]")

/-- `_DATABASE_URL`. -/
def databaseUrl : Rule Nat where
  starts := atWord tables
  head := .seq (word "postgres") (.seq (.optional (word "ql"))
    (.seq (.optional (.seq (word "+") (.oneOrMore (isAlnumOr "_.-")))) (word "://")))
  last := isVisibleBut "\"'<>"
  keepsHead := false
  new := text "[REDACTED_DATABASE_URL]"

/-- `_BEARER_VALUE`. -/
def bearerValue : Rule Nat where
  starts := atWord tables
  head := .seq (word "bearer") (.oneOrMore Text.isSpace)
  last := isAlnumOr "._~+/=-"
  keepsHead := false
  new := text "Bearer [REDACTED]"

/-- The first group of `_SECRET_ASSIGNMENT`. -/
def secretName : Regex Nat :=
  .alt (word "password") (.alt (word "passphrase") (.alt (word "secret") (.alt (word "token")
    (.alt (word "authorization") (.alt (word "csrf")
      (.seq (word "master") (.seq (.optional (.one (text "_-").contains)) (word "key"))))))))

/-- The second group of `_SECRET_ASSIGNMENT`. -/
def assignmentSign : Regex Nat :=
  .seq (.many Text.isSpace) (.seq (.one (text "=:").contains) (.many Text.isSpace))

/-- `_SECRET_ASSIGNMENT`; both groups are kept. -/
def secretAssignment : Rule Nat where
  starts := fun _ => true
  head := .seq secretName assignmentSign
  last := isVisibleBut ",;"
  keepsHead := true
  new := text "[REDACTED]"

/-! ## Texts -/

/-- The four substitutions of `sanitize_text`. -/
def redactText (value : Text) : Text :=
  Finder.sub secretAssignment.find (Finder.sub (bearerValue tables).find
    (Finder.sub (databaseUrl tables).find (Finder.sub privateKey value)))

/-- The cut of `sanitize_text`. -/
def cutText (limit : Nat) (s : Text) : Text :=
  if s.length ≤ limit then s
  else s.take limit ++ text "...[TRUNCATED:" ++ Json.natText (s.length - limit) ++ text "]"

/-- `_MAX_STRING_LENGTH`. -/
def maxStringLength : Nat := 1024

/-- The longest key of a mapping. -/
def maxKeyLength : Nat := 128

/-- `sanitize_text`. -/
def sanitizeText (limit : Nat) (value : Text) : Text :=
  cutText limit (redactText tables value)

/-! ## Keys -/

/-- `_SENSITIVE_KEY_PARTS`. -/
def sensitiveKeyParts : List Text :=
  ["authorization", "becomepassword", "ciphertext", "cookie", "csrf", "databaseurl",
    "encryptedsecret", "extravars", "inventory", "masterkey", "moduleargs", "passphrase",
    "password", "privatekey", "sessiontoken", "stderr", "stdout", "token"].map text

/-- `_SENSITIVE_EXACT_KEYS`. -/
def sensitiveExactKeys : List Text := ["cmd", "command", "public_key", "publickey"].map text

/-- `_sensitive_key`. -/
def sensitiveKey (key : Text) : Bool :=
  let folded := key.casefold
  let normalized := folded.filter fun c => (97 ≤ c && c ≤ 122) || (48 ≤ c && c ≤ 57)
  sensitiveExactKeys.contains folded || sensitiveKeyParts.any fun part => decide (part <:+: normalized)

/-! ## Values -/

/-- A metadata value. -/
inductive MetadataValue where
  | null
  | bool (value : Bool)
  | int (value : Int)
  /-- A float, by what `json.dumps` writes for it. -/
  | float (literal : Text)
  | str (value : Text)
  /-- A `UUID`, a `Path`, a `datetime` or an exception, by the text that stands for it: what
  `str` makes of it, the time in UTC or the name of its class. -/
  | plain (written : Text)
  /-- An `Enum`, by the text of its value, or an object of another class, by its name. -/
  | named (written : Text)
  /-- `bytes`, `bytearray` or `memoryview`, by its length. -/
  | bytes (length : Fin (2 ^ 63))
  /-- `SecretBytes` or `SecretStr`. -/
  | secret
  | list (items : List MetadataValue)
  /-- A mapping, with the texts of its keys. -/
  | dict (items : List (Text × MetadataValue))

/-- `_MAX_COLLECTION_ITEMS`. -/
def maxCollectionItems : Nat := 100

/-- `_MAX_METADATA_DEPTH`. -/
def maxMetadataDepth : Nat := 5

/-- `_MAX_METADATA_BYTES`. -/
def maxMetadataBytes : Nat := 16 * 1024

/-- What stands for a redacted value. -/
def redacted : Text := text "[REDACTED]"

/-- What stands for a value that is nested too deep. -/
def truncatedDepth : Text := text "[TRUNCATED_DEPTH]"

/-- What stands for bytes. -/
def redactedBytes (length : Nat) : Text :=
  text "[REDACTED_BYTES:" ++ Json.natText length ++ text "]"

/-- What stands for the items of a list that are cut off. -/
def truncatedItems (count : Nat) : Text :=
  text "[TRUNCATED_ITEMS:" ++ Json.natText count ++ text "]"

/-- The key of the count of members that are cut off. -/
def itemsTruncatedKey : Text := text "metadata_items_truncated"

section Sanitizing

variable (tables : CharTables)

mutual

/-- `_sanitize_value`. -/
def sanitizeValue (depth : Nat) (value : MetadataValue) : Json :=
  if maxMetadataDepth < depth then .str truncatedDepth
  else
    match value with
    | .null => .null
    | .bool value => .bool value
    | .int value => .int value
    | .float literal => .float literal
    | .str value => .str (sanitizeText tables maxStringLength value)
    | .plain written => .str written
    | .named written => .str (sanitizeText tables maxStringLength written)
    | .bytes length => .str (redactedBytes length)
    | .secret => .str redacted
    | .dict items =>
        let result := Json.merge [] (sanitizeMembers depth maxCollectionItems items)
        .obj (if maxCollectionItems < items.length then
          Json.set result itemsTruncatedKey (.int (items.length - maxCollectionItems : Nat))
        else result)
    | .list items =>
        .arr (sanitizeItems depth maxCollectionItems items ++
          if maxCollectionItems < items.length then
            [.str (truncatedItems (items.length - maxCollectionItems))]
          else [])

/-- The assignments for the first items of a mapping. -/
def sanitizeMembers (depth : Nat) : (count : Nat) → List (Text × MetadataValue) → List (Text × Json)
  | 0, _ => []
  | _ + 1, [] => []
  | count + 1, (key, item) :: items =>
      (sanitizeText tables maxKeyLength key,
        if sensitiveKey key then .str redacted else sanitizeValue (depth + 1) item) ::
        sanitizeMembers depth count items

/-- The first items of a sequence. -/
def sanitizeItems (depth : Nat) : (count : Nat) → List MetadataValue → List Json
  | 0, _ => []
  | _ + 1, [] => []
  | count + 1, item :: items => sanitizeValue (depth + 1) item :: sanitizeItems depth count items

end

/-- `json.dumps(result, …).encode()`. -/
def encoded (result : Json) : Option Bytes := (Json.dumpsCompact result).bind Text.encode

/-- `len(json.dumps(result, …).encode())`: nothing has more bytes than `sys.maxsize`. -/
def encodedLength (result : Json) : Option Nat :=
  (encoded result).bind fun bytes =>
    if bytes.length < 2 ^ 63 then some bytes.length else none

/-- What is kept of a result that is too large. -/
def sizeNote (size : Nat) : List (Text × Json) :=
  [(text "metadata_truncated", .bool true), (text "original_size_bytes", .int size)]

/-- `sanitize_metadata`, which raises where the result cannot be written and encoded. -/
def sanitizeMetadata : Option (List (Text × MetadataValue)) → Option (List (Text × Json))
  | none => some []
  | some items =>
      if items = [] then some []
      else
        match sanitizeValue tables 0 (.dict items) with
        | .obj result =>
            (encodedLength (.obj result)).map fun size =>
              if size ≤ maxMetadataBytes then result else sizeNote size
        | _ => some [(text "metadata_invalid", .bool true)]

end Sanitizing

/-! ## Results -/

mutual

/-- A result, as the value that it is. -/
def ofJson : Json → MetadataValue
  | .null => .null
  | .bool value => .bool value
  | .int value => .int value
  | .float literal => .float literal
  | .str value => .str value
  | .arr items => .list (ofItems items)
  | .obj members => .dict (ofMembers members)

/-- The same for the items of a list. -/
def ofItems : List Json → List MetadataValue
  | [] => []
  | item :: items => ofJson item :: ofItems items

/-- The same for the members of an object. -/
def ofMembers : List (Text × Json) → List (Text × MetadataValue)
  | [] => []
  | (key, value) :: members => (key, ofJson value) :: ofMembers members

end

end OpsComposer.Services.Observability
