import OpsComposer.Foundations.JsonDicts

/-!
# JSON in the order of its dicts

`json.dumps(value, ensure_ascii=False, separators=(",", ":"))`: dicts are written in
their own order, and infinite floats by name.

* `Encodable` — no integer is too long for Python to write, and no text has a surrogate;
* `exists_dumpsCompact` — then the value is written, and can be encoded.
-/

set_option autoImplicit false

namespace OpsComposer.Foundations.Json

mutual

/-- `json.dumps(value, ensure_ascii=False, separators=(",", ":"))`. -/
def dumpsCompact : Json → Option Text
  | .null => some (text "null")
  | .bool true => some (text "true")
  | .bool false => some (text "false")
  | .int n => if TooLong n then none else some (intText n)
  | .float literal => some literal
  | .str s => some (quotedUnicode s)
  | .arr items => (dumpsCompactItems items).map fun texts => 91 :: (Text.join comma texts ++ [93])
  | .obj members => (dumpsCompactMembers members).map fun texts =>
      123 :: (Text.join comma texts ++ [125])

/-- The items of a list, each written. -/
def dumpsCompactItems : List Json → Option (List Text)
  | [] => some []
  | item :: items =>
      match dumpsCompact item, dumpsCompactItems items with
      | some written, some rest => some (written :: rest)
      | _, _ => none

/-- The members of an object, each written. -/
def dumpsCompactMembers : List (Text × Json) → Option (List Text)
  | [] => some []
  | (key, value) :: members =>
      match dumpsCompact value, dumpsCompactMembers members with
      | some written, some rest => some ((quotedUnicode key ++ colon :: written) :: rest)
      | _, _ => none

end

/-! ## What can be written and encoded -/

mutual

/-- No integer in the value is too long, and no text has a surrogate. -/
def Encodable : Json → Prop
  | .int n => ¬ TooLong n
  | .float literal => Valid literal
  | .str s => Valid s
  | .arr items => EncodableItems items
  | .obj members => EncodableMembers members
  | _ => True

/-- The same for the items of a list. -/
def EncodableItems : List Json → Prop
  | [] => True
  | item :: items => Encodable item ∧ EncodableItems items

/-- The same for the names and values of members. -/
def EncodableMembers : List (Text × Json) → Prop
  | [] => True
  | (key, value) :: members => Valid key ∧ Encodable value ∧ EncodableMembers members

end

theorem encodableItems_iff {items : List Json} :
    EncodableItems items ↔ ∀ item ∈ items, Encodable item := by
  induction items with
  | nil => exact iff_of_true trivial fun item member => absurd member List.not_mem_nil
  | cons item items ih => rw [EncodableItems, ih, List.forall_mem_cons]

theorem encodableMembers_iff {members : List (Text × Json)} :
    EncodableMembers members ↔ ∀ member ∈ members, Valid member.1 ∧ Encodable member.2 := by
  induction members with
  | nil => exact iff_of_true trivial fun member there => absurd there List.not_mem_nil
  | cons member members ih => rw [EncodableMembers, ih, List.forall_mem_cons, and_assoc]

mutual

/-- **A value without long integers and surrogates is written, and can be encoded.** -/
theorem exists_dumpsCompact : ∀ value : Json, Encodable value →
    ∃ written, dumpsCompact value = some written ∧ Valid written
  | .null, _ => ⟨_, rfl, valid_of_ascii (by decide)⟩
  | .bool true, _ => ⟨_, rfl, valid_of_ascii (by decide)⟩
  | .bool false, _ => ⟨_, rfl, valid_of_ascii (by decide)⟩
  | .int n, short => ⟨_, if_neg short, valid_intText n⟩
  | .float literal, valid => ⟨literal, rfl, valid⟩
  | .str s, valid => ⟨_, rfl, valid_quotedUnicode.mpr valid⟩
  | .arr items, encodable => by
      obtain ⟨texts, written, valid⟩ := exists_dumpsCompactItems items encodable
      refine ⟨91 :: (Text.join comma texts ++ [93]), by rw [dumpsCompact, written]; rfl, ?_⟩
      rw [valid_cons, valid_append, valid_join]
      exact ⟨.inl (by decide), valid, valid_of_ascii (by decide)⟩
  | .obj members, encodable => by
      obtain ⟨texts, written, valid⟩ := exists_dumpsCompactMembers members encodable
      refine ⟨123 :: (Text.join comma texts ++ [125]), by rw [dumpsCompact, written]; rfl, ?_⟩
      rw [valid_cons, valid_append, valid_join]
      exact ⟨.inl (by decide), valid, valid_of_ascii (by decide)⟩

theorem exists_dumpsCompactItems : ∀ items : List Json, EncodableItems items →
    ∃ texts, dumpsCompactItems items = some texts ∧ ∀ s ∈ texts, Valid s
  | [], _ => ⟨[], rfl, fun s member => absurd member List.not_mem_nil⟩
  | item :: items, encodable => by
      obtain ⟨written, isWritten, valid⟩ := exists_dumpsCompact item encodable.1
      obtain ⟨texts, areWritten, valid'⟩ := exists_dumpsCompactItems items encodable.2
      refine ⟨written :: texts, ?_, List.forall_mem_cons.mpr ⟨valid, valid'⟩⟩
      rw [dumpsCompactItems, isWritten, areWritten]

theorem exists_dumpsCompactMembers : ∀ members : List (Text × Json), EncodableMembers members →
    ∃ texts, dumpsCompactMembers members = some texts ∧ ∀ s ∈ texts, Valid s
  | [], _ => ⟨[], rfl, fun s member => absurd member List.not_mem_nil⟩
  | (key, value) :: members, encodable => by
      obtain ⟨validKey, encodableValue, encodableRest⟩ := encodable
      obtain ⟨written, isWritten, valid⟩ := exists_dumpsCompact value encodableValue
      obtain ⟨texts, areWritten, valid'⟩ := exists_dumpsCompactMembers members encodableRest
      refine ⟨(quotedUnicode key ++ colon :: written) :: texts, ?_, List.forall_mem_cons.mpr ⟨?_, valid'⟩⟩
      · rw [dumpsCompactMembers, isWritten, areWritten]
      · rw [valid_append, valid_cons]
        exact ⟨valid_quotedUnicode.mpr validKey, .inl (by decide), valid⟩

end

end OpsComposer.Foundations.Json
