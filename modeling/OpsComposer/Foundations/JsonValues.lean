import Mathlib.Data.Rat.Floor
import OpsComposer.Foundations.JsonRoundTrip

/-!
# JSON values in Python

What a program can do with a value that `json.loads` has returned: look up the
members of a dict, compare numbers, and write the value again with its dicts in
the order of their keys.

* `Json.Keyed` — no dict has two members of one key;
* `Json.number?` — the value of a number; a float has the value of the nearest
  double to its literal;
* `Json.equal` — `==` between scalars;
* `Json.sortKeys` — the value with its dicts in the order of their keys, which is
  what `json.loads(json.dumps(value, sort_keys=True))` returns;
* `Json.dumpsUnicode` — `json.dumps` with `ensure_ascii=False`.

A float is given by what `float.__repr__` writes for it.
-/

set_option autoImplicit false

namespace OpsComposer.Foundations

namespace Json

/-! ## Dicts -/

/-- The keys of a dict. -/
abbrev keys {α : Type} (members : List (Text × α)) : List Text := members.map Prod.fst

section Lookup

variable {α : Type} {members others : List (Text × α)} {key : Text} {value : α}

theorem mem_of_lookup (found : members.lookup key = some value) : (key, value) ∈ members := by
  obtain ⟨before, after, rfl, -⟩ := List.lookup_eq_some_iff.mp found
  simp

theorem lookup_eq_some (distinct : (keys members).Nodup) :
    members.lookup key = some value ↔ (key, value) ∈ members := by
  refine ⟨mem_of_lookup, fun member => ?_⟩
  obtain ⟨before, after, rfl⟩ := List.append_of_mem member
  refine List.lookup_eq_some_iff.mpr ⟨before, after, rfl, fun other there => ?_⟩
  simp only [keys, List.map_append, List.map_cons, List.nodup_append] at distinct
  have apart := distinct.2.2 other.1 (List.mem_map_of_mem there) key List.mem_cons_self
  simpa using apart.symm

theorem lookup_eq_none : members.lookup key = none ↔ key ∉ keys members := by
  rw [List.lookup_eq_none_iff]
  constructor
  · intro none member
    obtain ⟨⟨other, value⟩, there, rfl⟩ := List.mem_map.mp member
    exact absurd (none _ there) (by simp)
  · intro absent other there
    have different : other.1 ≠ key := fun same => absent (same ▸ List.mem_map_of_mem there)
    simpa using different.symm

/-- The order of the members does not matter. -/
theorem lookup_perm (distinct : (keys members).Nodup) (perm : others.Perm members) :
    others.lookup key = members.lookup key := by
  have distinct' : (keys others).Nodup := (perm.map Prod.fst).nodup_iff.mpr distinct
  ext value
  rw [lookup_eq_some distinct', lookup_eq_some distinct, perm.mem_iff]

theorem lookup_sortedBy (distinct : (keys members).Nodup) :
    (sortedBy Prod.fst members).lookup key = members.lookup key :=
  lookup_perm distinct sortedBy_perm

end Lookup

mutual

/-- Every dict in the value has its keys once. -/
def keyed : Json → Bool
  | .arr items => keyedItems items
  | .obj members => decide (keys members).Nodup && keyedMembers members
  | _ => true

/-- The same for the items of a list. -/
def keyedItems : List Json → Bool
  | [] => true
  | item :: items => keyed item && keyedItems items

/-- The same for the values of members. -/
def keyedMembers : List (Text × Json) → Bool
  | [] => true
  | (_, value) :: members => keyed value && keyedMembers members

end

/-- No dict in the value has two members of one key. -/
abbrev Keyed (value : Json) : Prop := keyed value = true

theorem keyedItems_iff {items : List Json} : keyedItems items ↔ ∀ item ∈ items, Keyed item := by
  induction items with
  | nil => simp [keyedItems]
  | cons item items ih => simp [keyedItems, ih]

variable {members : List (Text × Json)}

theorem keyedMembers_iff :
    keyedMembers members ↔ ∀ member ∈ members, Keyed member.2 := by
  induction members with
  | nil => simp [keyedMembers]
  | cons member members ih => simp [keyedMembers, ih]

theorem keyed_obj :
    Keyed (.obj members) ↔ (keys members).Nodup ∧ ∀ member ∈ members, Keyed member.2 := by
  rw [Keyed, keyed, Bool.and_eq_true, decide_eq_true_eq, keyedMembers_iff]

theorem Keyed.lookup (keyed : Keyed (.obj members)) {key : Text}
    {value : Json} (found : members.lookup key = some value) : Keyed value :=
  (keyed_obj.mp keyed).2 _ (mem_of_lookup found)

/-! ## Sorted keys -/

mutual

/-- The value with its dicts in the order of their keys. -/
def sortKeys : Json → Json
  | .arr items => .arr (sortItems items)
  | .obj members => .obj (sortedBy Prod.fst (sortMembers members))
  | .null => .null
  | .bool value => .bool value
  | .int value => .int value
  | .float literal => .float literal
  | .str value => .str value

/-- The same for the items of a list. -/
def sortItems : List Json → List Json
  | [] => []
  | item :: items => sortKeys item :: sortItems items

/-- The same for the values of members, whose order stays. -/
def sortMembers : List (Text × Json) → List (Text × Json)
  | [] => []
  | (key, value) :: members => (key, sortKeys value) :: sortMembers members

end

/-- The members of a dict in order. -/
def sorted (members : List (Text × Json)) : List (Text × Json) :=
  sortedBy Prod.fst (sortMembers members)

theorem sortKeys_obj (members : List (Text × Json)) :
    sortKeys (.obj members) = .obj (sorted members) := by
  rw [sortKeys, sorted]

theorem sortMembers_eq (members : List (Text × Json)) :
    sortMembers members = members.map fun member => (member.1, sortKeys member.2) := by
  induction members with
  | nil => rfl
  | cons member members ih => rw [sortMembers, ih, List.map_cons]

theorem sortItems_eq (items : List Json) : sortItems items = items.map sortKeys := by
  induction items with
  | nil => rfl
  | cons item items ih => rw [sortItems, ih, List.map_cons]

theorem keys_sortMembers (members : List (Text × Json)) :
    keys (sortMembers members) = keys members := by
  rw [sortMembers_eq, keys, List.map_map]
  rfl

theorem keys_sorted_perm (members : List (Text × Json)) :
    (keys (sorted members)).Perm (keys members) := by
  rw [← keys_sortMembers members]
  exact sortedBy_perm.map Prod.fst

theorem mem_sorted {members : List (Text × Json)} {member : Text × Json} :
    member ∈ sorted members ↔
      ∃ value, (member.1, value) ∈ members ∧ member.2 = sortKeys value := by
  rw [sorted, mem_sortedBy, sortMembers_eq, List.mem_map]
  constructor
  · rintro ⟨⟨key, value⟩, there, rfl⟩
    exact ⟨value, there, rfl⟩
  · rintro ⟨value, there, same⟩
    exact ⟨_, there, by rw [← same]⟩

/-- **A member of a sorted dict** is the sorted member. -/
theorem lookup_sorted {members : List (Text × Json)} (distinct : (keys members).Nodup)
    (key : Text) : (sorted members).lookup key = (members.lookup key).map sortKeys := by
  rw [sorted, lookup_sortedBy ((keys_sortMembers members).symm ▸ distinct), sortMembers_eq]
  induction members with
  | nil => rfl
  | cons member members ih =>
      rw [List.map_cons, List.lookup_cons, List.lookup_cons]
      cases key == member.1 with
      | true => rfl
      | false => exact ih (List.nodup_cons.mp distinct).2

/-- Sorting goes through what keeps the keys. -/
theorem sortMembers_sortedBy (members : List (Text × Json)) :
    sortMembers (sortedBy Prod.fst members) = sortedBy Prod.fst (sortMembers members) := by
  rw [sortMembers_eq, sortMembers_eq, sortedBy, sortedBy]
  exact List.map_insertionSort _ _ _ _ fun _ _ _ _ => Iff.rfl

mutual

/-- **A value is sorted once.** -/
theorem sortKeys_sortKeys : ∀ value : Json, sortKeys (sortKeys value) = sortKeys value
  | .null => by simp only [sortKeys]
  | .bool value => by simp only [sortKeys]
  | .int n => by simp only [sortKeys]
  | .float literal => by simp only [sortKeys]
  | .str s => by simp only [sortKeys]
  | .arr items => by
      simp only [sortKeys]
      rw [sortItems_sortItems items]
  | .obj members => by
      simp only [sortKeys]
      rw [sortMembers_sortedBy, sortMembers_sortMembers members,
        sortedBy_of_pairwise sortedBy_pairwise]

theorem sortItems_sortItems : ∀ items : List Json, sortItems (sortItems items) = sortItems items
  | [] => rfl
  | item :: items => by
      simp only [sortItems]
      rw [sortKeys_sortKeys item, sortItems_sortItems items]

theorem sortMembers_sortMembers : ∀ members : List (Text × Json),
    sortMembers (sortMembers members) = sortMembers members
  | [] => rfl
  | (key, value) :: members => by
      simp only [sortMembers]
      rw [sortKeys_sortKeys value, sortMembers_sortMembers members]

end

/-! ## Numbers -/

/-- A nonnegative rational, rounded to the nearest integer and from the middle to
the even one. -/
def roundHalfEven (q : ℚ) : ℤ :=
  if q - ⌊q⌋ < 1 / 2 ∨ (q - ⌊q⌋ = 1 / 2 ∧ ⌊q⌋ % 2 = 0) then ⌊q⌋ else ⌊q⌋ + 1

/-- The exponent of the power of two that a positive rational has in its leading bit. -/
def magnitude (q : ℚ) : ℤ :=
  let guess : ℤ := Nat.log2 q.num.natAbs - Nat.log2 q.den
  if (2 : ℚ) ^ guess ≤ q then guess else guess - 1

/-- The nearest double to a nonnegative rational; there is none from `2^1024` on. -/
def nearestDouble (q : ℚ) : Option ℚ :=
  if q = 0 then some 0
  else
    let unit := max (magnitude q - 52) (-1074)
    let rounded := roundHalfEven (q / 2 ^ unit) * (2 : ℚ) ^ unit
    if rounded < 2 ^ 1024 then some rounded else none

/-- The exponent that a text of an exponent stands for. -/
def exponentValue : Text → ℤ
  | [] => 0
  | _ :: 45 :: digits => -ofDecimal digits
  | _ :: 43 :: digits => ofDecimal digits
  | _ :: digits => ofDecimal digits

/-- `float(literal)`, if it is finite. -/
def floatValue (literal : Text) : Option ℚ :=
  let sign := scanSign literal
  match scanNatural sign.2 with
  | none => none
  | some (digits, rest) =>
      let fraction := scanFraction rest
      let exponent := scanExponent fraction.2
      if exponent.2 ≠ [] then none
      else
        let decimals := fraction.1.drop 1
        let value := (ofDecimal (digits ++ decimals) : ℚ) *
          10 ^ (exponentValue exponent.1 - decimals.length)
        (nearestDouble value).map fun value => if sign.1 = [] then value else -value

/-- The value of a number that is finite. -/
def number? : Json → Option ℚ
  | .int n => some n
  | .float literal => floatValue literal
  | _ => none

/-- The number that a value is compared as; `True` is the integer 1. -/
def numeric? : Json → Option ℚ
  | .bool value => some (if value then 1 else 0)
  | value => number? value

/-- `a == b` between scalars, none of which is an infinite float. -/
def equal : Json → Json → Bool
  | .null, .null => true
  | .str a, .str b => a == b
  | a, b =>
      match numeric? a, numeric? b with
      | some x, some y => x == y
      | _, _ => false

/-- `a < b` between finite numbers. -/
def less (a b : Json) : Bool :=
  match numeric? a, numeric? b with
  | some x, some y => decide (x < y)
  | _, _ => false

/-- `bool(value)`. -/
def truthy : Json → Bool
  | .null => false
  | .bool value => value
  | .int n => n != 0
  | .float literal => floatValue literal != some 0
  | .str s => s != []
  | .arr items => !items.isEmpty
  | .obj members => !members.isEmpty

/-- `isinstance(value, str)`, and so on; a `bool` is an `int` to `isinstance`. -/
def isStr : Json → Bool
  | .str _ => true
  | _ => false

/-- The value is a truth value. -/
def isBool : Json → Bool
  | .bool _ => true
  | _ => false

/-- `isinstance(value, int) and not isinstance(value, bool)`. -/
def isInt : Json → Bool
  | .int _ => true
  | _ => false

/-- The integer has more digits than Python writes. -/
def TooLong (n : Int) : Prop := maxIntDigits < (natText n.natAbs).length

instance (n : Int) : Decidable (TooLong n) := inferInstanceAs (Decidable (_ < _))

/-! ## Writing Unicode -/

/-- One character of a string, with `ensure_ascii=False`. -/
def escapeUnicode (c : Nat) : Text :=
  match shortEscapes.lookup c with
  | some short => [backslash, short]
  | none => if c < 32 then backslash :: 117 :: hex4 c else [c]

/-- A text in quotes, with its characters as they are where JSON allows that. -/
def quotedUnicode (s : Text) : Text := quote :: (s.flatMap escapeUnicode ++ [quote])

mutual

/-- `json.dumps(value, sort_keys=True, separators=(",", ":"), ensure_ascii=False,
allow_nan=False)`, which raises a `ValueError` on an infinite float and on an
integer that is too long. -/
def dumpsUnicode : Json → Option Text
  | .null => some (text "null")
  | .bool true => some (text "true")
  | .bool false => some (text "false")
  | .int n => if TooLong n then none else some (intText n)
  | .float literal => if floatValue literal = none then none else some literal
  | .str s => some (quotedUnicode s)
  | .arr items => (dumpsUnicodeItems items).map fun texts =>
      91 :: (Text.join comma texts ++ [93])
  | .obj members => (dumpsUnicodeMembers members).map fun texts =>
      123 :: (Text.join comma ((sortedBy Prod.fst texts).map fun member =>
        quotedUnicode member.1 ++ colon :: member.2) ++ [125])

/-- The items of a list, each written. -/
def dumpsUnicodeItems : List Json → Option (List Text)
  | [] => some []
  | item :: items =>
      match dumpsUnicode item, dumpsUnicodeItems items with
      | some written, some rest => some (written :: rest)
      | _, _ => none

/-- The members of an object, each with its value written. -/
def dumpsUnicodeMembers : List (Text × Json) → Option (List (Text × Text))
  | [] => some []
  | (key, value) :: members =>
      match dumpsUnicode value, dumpsUnicodeMembers members with
      | some written, some rest => some ((key, written) :: rest)
      | _, _ => none

end

/-- One more member, written. -/
theorem dumpsUnicodeMembers_orderedInsert (member : Text × Json) (members : List (Text × Json)) :
    dumpsUnicodeMembers (members.orderedInsert (fun a b => a.1 ≤ b.1) member) =
      (dumpsUnicode member.2).bind fun written => (dumpsUnicodeMembers members).map
        fun texts => texts.orderedInsert (fun a b => a.1 ≤ b.1) (member.1, written) := by
  induction members with
  | nil =>
      simp only [List.orderedInsert_nil, dumpsUnicodeMembers]
      cases dumpsUnicode member.2 <;> rfl
  | cons other members ih =>
      rw [List.orderedInsert_cons]
      by_cases before : member.1 ≤ other.1
      · rw [if_pos before]
        simp only [dumpsUnicodeMembers]
        cases dumpsUnicode member.2 <;> cases dumpsUnicode other.2 <;>
          cases dumpsUnicodeMembers members <;> simp [List.orderedInsert_cons, before]
      · rw [if_neg before]
        simp only [dumpsUnicodeMembers]
        rw [ih]
        cases dumpsUnicode member.2 <;> cases dumpsUnicode other.2 <;>
          cases dumpsUnicodeMembers members <;> simp [List.orderedInsert_cons, before]

/-- Members are sorted before they are written, or after. -/
theorem dumpsUnicodeMembers_sortedBy (members : List (Text × Json)) :
    dumpsUnicodeMembers (sortedBy Prod.fst members) =
      (dumpsUnicodeMembers members).map (sortedBy Prod.fst) := by
  induction members with
  | nil => rfl
  | cons member members ih =>
      have step : sortedBy Prod.fst (member :: members) =
          (sortedBy Prod.fst members).orderedInsert (fun a b => a.1 ≤ b.1) member := rfl
      rw [step, dumpsUnicodeMembers_orderedInsert, ih, dumpsUnicodeMembers]
      cases dumpsUnicode member.2 <;> cases dumpsUnicodeMembers members <;> rfl

mutual

/-- **A value and the sorted one have one text.** -/
theorem dumpsUnicode_sortKeys : ∀ value : Json, dumpsUnicode (sortKeys value) = dumpsUnicode value
  | .null => by rw [sortKeys]
  | .bool _ => by rw [sortKeys]
  | .int _ => by rw [sortKeys]
  | .float _ => by rw [sortKeys]
  | .str _ => by rw [sortKeys]
  | .arr items => by rw [sortKeys, dumpsUnicode, dumpsUnicode, dumpsUnicodeItems_sortItems items]
  | .obj members => by
      rw [sortKeys, dumpsUnicode, dumpsUnicode, dumpsUnicodeMembers_sortedBy,
        dumpsUnicodeMembers_sortMembers members, Option.map_map]
      refine congrArg (fun f => (dumpsUnicodeMembers members).map f) ?_
      funext texts
      rw [Function.comp_apply, sortedBy_of_pairwise sortedBy_pairwise]

theorem dumpsUnicodeItems_sortItems : ∀ items : List Json,
    dumpsUnicodeItems (sortItems items) = dumpsUnicodeItems items
  | [] => rfl
  | item :: items => by
      rw [sortItems, dumpsUnicodeItems, dumpsUnicodeItems, dumpsUnicode_sortKeys item,
        dumpsUnicodeItems_sortItems items]

theorem dumpsUnicodeMembers_sortMembers : ∀ members : List (Text × Json),
    dumpsUnicodeMembers (sortMembers members) = dumpsUnicodeMembers members
  | [] => rfl
  | (key, value) :: members => by
      rw [sortMembers, dumpsUnicodeMembers, dumpsUnicodeMembers, dumpsUnicode_sortKeys value,
        dumpsUnicodeMembers_sortMembers members]

end

/-! ## What can be written, and encoded -/

mutual

/-- The value has no infinite float and no integer that is too long. -/
def PlainNumbers : Json → Prop
  | .int n => ¬ TooLong n
  | .float literal => floatValue literal ≠ none
  | .arr items => PlainNumbersItems items
  | .obj members => PlainNumbersMembers members
  | _ => True

/-- The same for the items of a list. -/
def PlainNumbersItems : List Json → Prop
  | [] => True
  | item :: items => PlainNumbers item ∧ PlainNumbersItems items

/-- The same for the values of members. -/
def PlainNumbersMembers : List (Text × Json) → Prop
  | [] => True
  | (_, value) :: members => PlainNumbers value ∧ PlainNumbersMembers members

end

mutual

/-- No text in the value, nor any key, has a surrogate. -/
def ValidTexts : Json → Prop
  | .float literal => Valid literal
  | .str s => Valid s
  | .arr items => ValidTextsItems items
  | .obj members => ValidTextsMembers members
  | _ => True

/-- The same for the items of a list. -/
def ValidTextsItems : List Json → Prop
  | [] => True
  | item :: items => ValidTexts item ∧ ValidTextsItems items

/-- The same for the names and values of members. -/
def ValidTextsMembers : List (Text × Json) → Prop
  | [] => True
  | (key, value) :: members => Valid key ∧ ValidTexts value ∧ ValidTextsMembers members

end

mutual

/-- What the writer accepts. -/
theorem isSome_dumpsUnicode : ∀ value : Json, (dumpsUnicode value).isSome ↔ PlainNumbers value
  | .null => by simp [dumpsUnicode, PlainNumbers]
  | .bool true => by simp [dumpsUnicode, PlainNumbers]
  | .bool false => by simp [dumpsUnicode, PlainNumbers]
  | .int n => by
      rw [dumpsUnicode, PlainNumbers]
      split <;> simp_all
  | .float literal => by
      rw [dumpsUnicode, PlainNumbers]
      split <;> simp_all
  | .str s => by simp [dumpsUnicode, PlainNumbers]
  | .arr items => by
      rw [dumpsUnicode, PlainNumbers, Option.isSome_map]
      exact isSome_dumpsUnicodeItems items
  | .obj members => by
      rw [dumpsUnicode, PlainNumbers, Option.isSome_map]
      exact isSome_dumpsUnicodeMembers members

theorem isSome_dumpsUnicodeItems : ∀ items : List Json,
    (dumpsUnicodeItems items).isSome ↔ PlainNumbersItems items
  | [] => by simp [dumpsUnicodeItems, PlainNumbersItems]
  | item :: items => by
      rw [dumpsUnicodeItems, PlainNumbersItems, ← isSome_dumpsUnicode item,
        ← isSome_dumpsUnicodeItems items]
      cases dumpsUnicode item <;> cases dumpsUnicodeItems items <;> simp

theorem isSome_dumpsUnicodeMembers : ∀ members : List (Text × Json),
    (dumpsUnicodeMembers members).isSome ↔ PlainNumbersMembers members
  | [] => by simp [dumpsUnicodeMembers, PlainNumbersMembers]
  | (key, value) :: members => by
      rw [dumpsUnicodeMembers, PlainNumbersMembers, ← isSome_dumpsUnicode value,
        ← isSome_dumpsUnicodeMembers members]
      cases dumpsUnicode value <;> cases dumpsUnicodeMembers members <;> simp

end

theorem valid_append {s t : Text} : Valid (s ++ t) ↔ Valid s ∧ Valid t := List.forall_mem_append

theorem valid_cons {c : Nat} {s : Text} : Valid (c :: s) ↔ c.isValidChar ∧ Valid s :=
  List.forall_mem_cons

theorem valid_of_ascii {s : Text} (ascii : ∀ c ∈ s, c < 128) : Valid s :=
  fun c member => .inl (by have := ascii c member; omega)

theorem valid_join {parts : List Text} :
    Valid (Text.join comma parts) ↔ ∀ part ∈ parts, Valid part := by
  constructor
  · intro valid part member c inside
    exact valid c (Text.mem_join_of_mem member inside)
  · intro valid c inside
    rcases Text.mem_join inside with rfl | ⟨part, member, inside⟩
    · exact .inl (by decide)
    · exact valid part member c inside

theorem valid_intText (n : Int) : Valid (intText n) := by
  have digits : ∀ n : Nat, Valid (natText n) := fun n => valid_of_ascii fun c member => by
    have digit := isDigit_natText member
    simp only [isDigit, Bool.and_eq_true, decide_eq_true_eq] at digit
    omega
  cases n with
  | ofNat n => exact digits n
  | negSucc n => exact valid_cons.mpr ⟨.inl (by decide), digits (n + 1)⟩

/-- An escape can be encoded if its character can. -/
theorem valid_escapeUnicode {c : Nat} : Valid (escapeUnicode c) ↔ c.isValidChar := by
  unfold escapeUnicode
  split
  · rename_i short found
    have all : ∀ entry ∈ shortEscapes, entry.1 < 128 ∧ entry.2 < 128 := by decide
    obtain ⟨before, after, split, -⟩ := List.lookup_eq_some_iff.mp found
    obtain ⟨low, low'⟩ := all (c, short) (by rw [split]; simp)
    refine ⟨fun _ => .inl (by simp only at low; omega), fun _ => valid_of_ascii ?_⟩
    simp only [List.forall_mem_cons, List.not_mem_nil, false_implies, implies_true, and_true]
    exact ⟨by decide, low'⟩
  · by_cases control : c < 32
    · rw [if_pos control]
      refine ⟨fun _ => .inl (by omega), fun _ => valid_of_ascii ?_⟩
      simp only [List.forall_mem_cons]
      exact ⟨by decide, by decide, hex4_ascii (by omega)⟩
    · rw [if_neg control]
      exact List.forall_mem_singleton

theorem valid_quotedUnicode {s : Text} : Valid (quotedUnicode s) ↔ Valid s := by
  have mark : quote.isValidChar := .inl (by decide)
  rw [quotedUnicode, valid_cons, valid_append, and_iff_right mark]
  have last : Valid [quote] := List.forall_mem_singleton.mpr mark
  rw [and_iff_left last]
  constructor
  · intro valid c member
    exact valid_escapeUnicode.mp fun d inside => valid d (List.mem_flatMap.mpr ⟨c, member, inside⟩)
  · intro valid d inside
    obtain ⟨c, member, inside⟩ := List.mem_flatMap.mp inside
    exact valid_escapeUnicode.mpr (valid c member) d inside

mutual

/-- **What is written can be encoded** if no text in the value has a surrogate. -/
theorem valid_dumpsUnicode : ∀ (value : Json) (written : Text),
    dumpsUnicode value = some written → (Valid written ↔ ValidTexts value)
  | .null, written, wrote => by
      obtain rfl := Option.some.inj wrote
      exact ⟨fun _ => by simp [ValidTexts], fun _ => valid_of_ascii (by decide)⟩
  | .bool true, written, wrote => by
      obtain rfl := Option.some.inj wrote
      exact ⟨fun _ => by simp [ValidTexts], fun _ => valid_of_ascii (by decide)⟩
  | .bool false, written, wrote => by
      obtain rfl := Option.some.inj wrote
      exact ⟨fun _ => by simp [ValidTexts], fun _ => valid_of_ascii (by decide)⟩
  | .int n, written, wrote => by
      rw [dumpsUnicode] at wrote
      split at wrote
      · cases wrote
      · obtain rfl := Option.some.inj wrote
        exact ⟨fun _ => by simp [ValidTexts], fun _ => valid_intText n⟩
  | .float literal, written, wrote => by
      rw [dumpsUnicode] at wrote
      split at wrote
      · cases wrote
      · obtain rfl := Option.some.inj wrote
        rw [ValidTexts]
  | .str s, written, wrote => by
      rw [dumpsUnicode] at wrote
      obtain rfl := Option.some.inj wrote
      rw [ValidTexts, valid_quotedUnicode]
  | .arr items, written, wrote => by
      rw [dumpsUnicode] at wrote
      obtain ⟨texts, parts, rfl⟩ := Option.map_eq_some_iff.mp wrote
      rw [ValidTexts, ← valid_dumpsUnicodeItems items texts parts, valid_cons, valid_append,
        valid_join, and_iff_right (.inl (by decide)),
        and_iff_left (valid_of_ascii (by decide))]
  | .obj members, written, wrote => by
      rw [dumpsUnicode] at wrote
      obtain ⟨texts, parts, rfl⟩ := Option.map_eq_some_iff.mp wrote
      rw [ValidTexts, ← valid_dumpsUnicodeMembers members texts parts, valid_cons, valid_append,
        valid_join, and_iff_right (.inl (by decide)),
        and_iff_left (valid_of_ascii (by decide)), List.forall_mem_map]
      refine forall_congr' fun member => imp_congr mem_sortedBy ?_
      have mark : colon.isValidChar := .inl (by decide)
      rw [valid_append, valid_cons, valid_quotedUnicode, and_iff_right mark]

theorem valid_dumpsUnicodeItems : ∀ (items : List Json) (texts : List Text),
    dumpsUnicodeItems items = some texts → ((∀ s ∈ texts, Valid s) ↔ ValidTextsItems items)
  | [], texts, wrote => by
      obtain rfl := Option.some.inj wrote
      simp [ValidTextsItems]
  | item :: items, texts, wrote => by
      rw [dumpsUnicodeItems] at wrote
      split at wrote
      · rename_i head rest first others
        obtain rfl := Option.some.inj wrote
        rw [List.forall_mem_cons, ValidTextsItems, valid_dumpsUnicode item head first,
          valid_dumpsUnicodeItems items rest others]
      · cases wrote

theorem valid_dumpsUnicodeMembers : ∀ (members : List (Text × Json)) (texts : List (Text × Text)),
    dumpsUnicodeMembers members = some texts →
      ((∀ member ∈ texts, Valid member.1 ∧ Valid member.2) ↔ ValidTextsMembers members)
  | [], texts, wrote => by
      obtain rfl := Option.some.inj wrote
      simp [ValidTextsMembers]
  | (key, value) :: members, texts, wrote => by
      rw [dumpsUnicodeMembers] at wrote
      split at wrote
      · rename_i head rest first others
        obtain rfl := Option.some.inj wrote
        rw [List.forall_mem_cons, ValidTextsMembers, valid_dumpsUnicode value head first,
          valid_dumpsUnicodeMembers members rest others, and_assoc]
      · cases wrote

end

end Json

end OpsComposer.Foundations
