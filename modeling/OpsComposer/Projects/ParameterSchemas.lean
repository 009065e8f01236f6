import OpsComposer.Services.PlaybookParameters

/-!
# Accepted parameter schemas

What `validate_parameter_schema` demands of a schema, keyword by keyword
(`RootFits`, `PropertyFits`), and when it raises an exception that is none of its
own (`validateParameterSchema_failsCleanly_iff`).  There are three: the type of a
property is looked for in a set, so a list or a dict in its place raises a
`TypeError`; the items of an enum are written with `json.dumps` outside of the
`try`, so an integer of too many digits raises a `ValueError`; and the text of an
accepted schema is encoded outside of the `try`, so a lone surrogate raises a
`UnicodeEncodeError`.
-/

set_option autoImplicit false

namespace OpsComposer.Services.PlaybookProject

open Foundations

/-! ## Outcomes -/

section Outcomes

variable {ε α β : Type}

/-- A sequence returns when both parts do. -/
theorem bind_eq_ok {x : Except ε α} {f : α → Except ε β} {b : β} :
    (x >>= f) = .ok b ↔ ∃ a, x = .ok a ∧ f a = .ok b := by
  cases x with
  | error error => exact ⟨fun same => (nomatch same), fun ⟨_, same, _⟩ => (nomatch same)⟩
  | ok a => exact ⟨fun same => ⟨a, rfl, same⟩, fun ⟨_, same, next⟩ => Except.ok.inj same ▸ next⟩

variable {error : ParameterError} {a : α}

theorem require_eq_ok {condition : Prop} [Decidable condition]
    {done : Unit} : require condition error = .ok done ↔ condition := by
  unfold require
  split <;> simp_all

theorem pure_eq_ok {b : α} : (pure a : Except ParameterError α) = .ok b ↔ a = b :=
  Except.ok.injEq a b ▸ Iff.rfl

/-- An exception of Python itself, and not of the program. -/
def ParameterError.Foreign : ParameterError → Prop
  | .projectInvalid _ _ => False
  | .validation _ _ => False
  | _ => True

/-- An exception is raised that is none of the program's. -/
def Crashes (outcome : Except ParameterError α) : Prop :=
  ∃ error, outcome = .error error ∧ error.Foreign

@[simp] theorem not_crashes_ok : ¬ Crashes (.ok a : Except ParameterError α) := by
  rintro ⟨error, same, -⟩
  cases same

@[simp] theorem not_crashes_pure : ¬ Crashes (pure a : Except ParameterError α) :=
  not_crashes_ok

@[simp] theorem crashes_error :
    Crashes (.error error : Except ParameterError α) ↔ error.Foreign := by
  constructor
  · rintro ⟨other, same, foreign⟩
    exact Except.error.inj same ▸ foreign
  · intro foreign
    exact ⟨error, rfl, foreign⟩

theorem crashes_bind {x : Except ParameterError α} {f : α → Except ParameterError β} :
    Crashes (x >>= f) ↔ Crashes x ∨ ∃ a, x = .ok a ∧ Crashes (f a) := by
  cases x with
  | error error =>
      have same : ((.error error : Except ParameterError α) >>= f) = .error error := rfl
      rw [same, crashes_error, crashes_error]
      exact ⟨.inl, fun either => either.elim id fun ⟨_, same, _⟩ => (nomatch same)⟩
  | ok a =>
      constructor
      · exact fun crash => .inr ⟨a, rfl, crash⟩
      · rintro (crash | ⟨_, same, crash⟩)
        · exact absurd crash not_crashes_ok
        · exact Except.ok.inj same ▸ crash

theorem crashes_require {condition : Prop} [Decidable condition] :
    Crashes (require condition error) ↔ ¬ condition ∧ error.Foreign := by
  unfold require
  split <;> simp_all

theorem forM_eq_ok {items : List α} {f : α → Except ParameterError Unit} {done : Unit} :
    items.forM f = .ok done ↔ ∀ item ∈ items, f item = .ok () := by
  induction items with
  | nil => simp [pure_eq_ok]
  | cons item items ih =>
      have step : (item :: items).forM f = (f item >>= fun _ => items.forM f) := rfl
      rw [step, bind_eq_ok, List.forall_mem_cons, ← ih]
      exact ⟨fun ⟨_, first, others⟩ => ⟨first, others⟩, fun ⟨first, others⟩ => ⟨_, first, others⟩⟩

/-- A loop crashes at the first item that does not pass. -/
theorem crashes_forM {items : List α} {f : α → Except ParameterError Unit} :
    Crashes (items.forM f) ↔ ∃ before item after, items = before ++ item :: after ∧
      (∀ other ∈ before, f other = .ok ()) ∧ Crashes (f item) := by
  induction items with
  | nil => simp
  | cons head items ih =>
      have step : (head :: items).forM f = (f head >>= fun _ => items.forM f) := rfl
      rw [step, crashes_bind]
      constructor
      · rintro (crash | ⟨_, passed, crash⟩)
        · exact ⟨[], head, items, rfl, by simp, crash⟩
        · obtain ⟨before, item, after, rfl, others, crash⟩ := ih.mp crash
          exact ⟨head :: before, item, after, rfl, by simpa using ⟨passed, others⟩, crash⟩
      · rintro ⟨before, item, after, split, others, crash⟩
        cases before with
        | nil =>
            obtain ⟨rfl, rfl⟩ := List.cons.inj split
            exact .inl crash
        | cons first before =>
            obtain ⟨rfl, rfl⟩ := List.cons.inj split
            rw [List.forall_mem_cons] at others
            exact .inr ⟨(), others.1, ih.mpr ⟨before, item, after, rfl, others.2, crash⟩⟩

end Outcomes

/-! ## Types -/

/-- The four types of a value. -/
inductive ValueType where
  | string
  | integer
  | number
  | boolean
  deriving DecidableEq, Repr

namespace ValueType

/-- The name of a type in a schema. -/
def name : ValueType → String
  | string => "string"
  | integer => "integer"
  | number => "number"
  | boolean => "boolean"

/-- The value of a type, as it stands in a schema. -/
def json (valueType : ValueType) : Json := .str (text valueType.name)

/-- The values of a type: no `bool` is a number, and no float that is infinite. -/
def Admits : ValueType → Json → Prop
  | string, value => ∃ s, value = .str s
  | integer, value => ∃ n, value = .int n
  | number, value => ∃ q, Json.number? value = some q
  | boolean, value => ∃ b, value = .bool b

end ValueType

variable {value valueType : Json} {candidate definition properties : Members}
  {enum : Option (List Json)} {done : Unit}

theorem isText_eq_true {literal : String} :
    isText value literal = true ↔ value = .str (text literal) := by
  cases value <;> simp [isText]

theorem isFalse_eq_true : isFalse value = true ↔ value = .bool false := by
  cases value <;> simp [isFalse]

theorem isTrue_eq_true : isTrue value = true ↔ value = .bool true := by
  cases value <;> simp [isTrue]

theorem isStr_eq_true : value.isStr = true ↔ ∃ s, value = .str s := by
  cases value <;> simp [Json.isStr]

theorem isBool_eq_true : value.isBool = true ↔ ∃ b, value = .bool b := by
  cases value <;> simp [Json.isBool]

theorem isInt_eq_true : value.isInt = true ↔ ∃ n, value = .int n := by
  cases value <;> simp [Json.isInt]

theorem finiteNumber_eq_true :
    finiteNumber value = true ↔ ∃ q, Json.number? value = some q := Option.isSome_iff_exists

theorem isText_json {valueType : ValueType} {literal : String} :
    isText valueType.json literal = decide (text valueType.name = text literal) := by
  rw [Bool.eq_iff_iff, isText_eq_true, decide_eq_true_eq, ValueType.json, Json.str.injEq]

theorem mem_valueTypes {s : Text} :
    s ∈ valueTypes ↔ ∃ valueType : ValueType, s = text valueType.name := by
  simp only [valueTypes, List.map_cons, List.map_nil, List.mem_cons, List.not_mem_nil, or_false]
  constructor
  · rintro (rfl | rfl | rfl | rfl)
    · exact ⟨.string, rfl⟩
    · exact ⟨.integer, rfl⟩
    · exact ⟨.number, rfl⟩
    · exact ⟨.boolean, rfl⟩
  · rintro ⟨valueType, rfl⟩
    cases valueType <;> simp [ValueType.name]

theorem json_injective {a b : ValueType} (same : a.json = b.json) : a = b := by
  have names := Json.str.inj same
  cases a <;> cases b <;> first | rfl | exact absurd names (by decide)

/-- **`_validate_parameter_type`** -/
theorem validateParameterType_eq_ok {name : Text} {valueType : ValueType} :
    validateParameterType name valueType.json value = .ok done ↔ valueType.Admits value := by
  rw [validateParameterType, require_eq_ok, isText_json, isText_json, isText_json]
  cases valueType with
  | string => exact isStr_eq_true
  | integer => exact isInt_eq_true
  | number => exact finiteNumber_eq_true
  | boolean => exact isBool_eq_true

theorem not_crashes_validateParameterType {name : Text} :
    ¬ Crashes (validateParameterType name valueType value) := by
  rw [validateParameterType, crashes_require]
  exact fun crash => crash.2

/-! ## Definitions -/

/-- The keywords that are looked at before the enum. -/
structure HeadFits (definition : Members) (valueType : ValueType) : Prop where
  type : definition.lookup (text "type") = some valueType.json
  description : ∀ value ∈ get definition "description", value.isStr
  marker : ∀ value ∈ definition.lookup (text "x-ops-composer-sensitive"), value.isBool
  sensitive : definition.lookup (text "x-ops-composer-sensitive") = some (.bool true) →
    valueType = .string ∧ definition.lookup (text "default") = none

/-- The limits of a length belong to strings, and those of a range to numbers. -/
structure LimitsFit (definition : Members) (valueType : ValueType) : Prop where
  lengths : valueType = .string →
    ((∀ value ∈ get definition "minLength", isLength value) ∧
      ∀ value ∈ get definition "maxLength", isLength value) ∧
        ¬ lengthsReversed (get definition "minLength") (get definition "maxLength")
  noLengths : valueType ≠ .string →
    get definition "minLength" = none ∧ get definition "maxLength" = none
  range : valueType = .integer ∨ valueType = .number →
    ((∀ value ∈ get definition "minimum", finiteNumber value) ∧
      ∀ value ∈ get definition "maximum", finiteNumber value) ∧
        ¬ rangeReversed (get definition "minimum") (get definition "maximum")
  noRange : ¬ (valueType = .integer ∨ valueType = .number) →
    get definition "minimum" = none ∧ get definition "maximum" = none

/-- An integer in the list is too long to be written. -/
def SomeTooLong (items : List Json) : Prop := ∃ n, .int n ∈ items ∧ Json.TooLong n

/-- The values of an enum are of its type, and are written differently. -/
structure EnumFits (valueType : ValueType) (items : List Json) : Prop where
  some : items ≠ []
  typed : ∀ item ∈ items, valueType.Admits item
  short : ¬ SomeTooLong items
  distinct : (items.map Json.dumps).Nodup

/-- What is demanded of the definition of a property. -/
structure DefinitionFits (definition : Members) (valueType : ValueType) : Prop
    extends HeadFits definition valueType, LimitsFit definition valueType where
  enum : ∀ value ∈ definition.lookup (text "enum"), ∃ items, value = .arr items ∧
    EnumFits valueType items
  default : ∀ value ∈ definition.lookup (text "default"), valueType.Admits value ∧
    ∀ items, definition.lookup (text "enum") = some (.arr items) → isIn value items

theorem valueTypeOf_eq_ok {name : Text} :
    valueTypeOf name definition = .ok value ↔
      ∃ valueType : ValueType, value = valueType.json ∧
        definition.lookup (text "type") = some valueType.json := by
  unfold valueTypeOf
  split <;> rename_i found
  · simp [found, ValueType.json]
  · simp [found, ValueType.json]
  · simp only [bind_eq_ok, require_eq_ok, pure_eq_ok, exists_const, mem_valueTypes, found]
    constructor
    · rintro ⟨⟨valueType, rfl⟩, rfl⟩
      exact ⟨valueType, rfl, rfl⟩
    · rintro ⟨valueType, rfl, same⟩
      rw [Option.some.inj same]
      exact ⟨⟨valueType, Json.str.inj (Option.some.inj same)⟩, rfl⟩
  · rename_i other
    constructor
    · intro none
      cases none
    · rintro ⟨valueType, -, same⟩
      exact absurd same (found _)

/-- The type of a property crashes if it has no hash. -/
theorem crashes_valueTypeOf {name : Text} :
    Crashes (valueTypeOf name definition) ↔
      (∃ items, definition.lookup (text "type") = some (.arr items)) ∨
        ∃ members, definition.lookup (text "type") = some (.obj members) := by
  unfold valueTypeOf
  split <;> rename_i found
  · rw [crashes_error, found]
    exact ⟨fun _ => .inl ⟨_, rfl⟩, fun _ => trivial⟩
  · rw [crashes_error, found]
    exact ⟨fun _ => .inr ⟨_, rfl⟩, fun _ => trivial⟩
  · rw [crashes_bind, crashes_require, found]
    simp [ParameterError.Foreign]
  · rename_i noList noDict
    rw [crashes_error]
    constructor
    · exact False.elim
    · rintro (⟨items, same⟩ | ⟨members, same⟩)
      · exact absurd same (noList items)
      · exact absurd same (noDict members)

theorem length_dedup_eq {texts : List Text} : texts.dedup.length = texts.length ↔ texts.Nodup := by
  constructor
  · intro same
    have unchanged := (List.dedup_sublist texts).eq_of_length same
    rw [← unchanged]
    exact List.nodup_dedup texts
  · intro distinct
    rw [distinct.dedup]

/-- The items of an enum are written, unless an integer is too long. -/
theorem mapM_dumpsItem (items : List Json) :
    (¬ SomeTooLong items → items.mapM dumpsItem = .ok (items.map Json.dumps)) ∧
      (SomeTooLong items → items.mapM dumpsItem = .error .valueError) := by
  induction items with
  | nil => exact ⟨fun _ => rfl, fun ⟨_, member, _⟩ => (nomatch member)⟩
  | cons item items ih =>
      have head : (∃ n, item = .int n ∧ Json.TooLong n) ∧ dumpsItem item = .error .valueError ∨
          (¬ ∃ n, item = .int n ∧ Json.TooLong n) ∧ dumpsItem item = .ok (Json.dumps item) := by
        cases item with
        | int n =>
            by_cases long : Json.TooLong n
            · exact .inl ⟨⟨n, rfl, long⟩, by simp [dumpsItem, require, long]⟩
            · refine .inr ⟨?_, by simp [dumpsItem, require, long]⟩
              rintro ⟨m, same, long'⟩
              exact long (Json.int.inj same ▸ long')
        | _ => exact .inr ⟨by simp, rfl⟩
      have split : SomeTooLong (item :: items) ↔
          (∃ n, item = .int n ∧ Json.TooLong n) ∨ SomeTooLong items := by
        simp only [SomeTooLong, List.mem_cons, or_and_right, exists_or, eq_comm]
      rw [List.mapM_cons, split, List.map_cons]
      rcases head with ⟨long, written⟩ | ⟨short, written⟩
      · rw [written]
        exact ⟨fun clean => absurd (.inl long) clean, fun _ => rfl⟩
      · rw [written]
        constructor
        · intro clean
          rw [ih.1 fun later => clean (.inr later)]
          rfl
        · rintro (long | later)
          · exact absurd long short
          · rw [ih.2 later]
            rfl

theorem enumOf_eq_ok {name : Text} {valueType : ValueType} :
    enumOf name valueType.json definition = .ok enum ↔
      (definition.lookup (text "enum") = none ∧ enum = none) ∨
        ∃ items, definition.lookup (text "enum") = some (.arr items) ∧ EnumFits valueType items ∧
          enum = some items := by
  unfold enumOf
  split <;> rename_i found
  · simp [found, eq_comm]
  · rename_i items
    simp only [bind_eq_ok, require_eq_ok, pure_eq_ok, forM_eq_ok, validateParameterType_eq_ok,
      exists_const, found, Option.some.injEq, Json.arr.injEq, exists_eq_left', reduceCtorEq,
      false_and, false_or]
    by_cases long : SomeTooLong items
    · rw [(mapM_dumpsItem items).2 long]
      constructor
      · rintro ⟨-, -, texts, same, -⟩
        cases same
      · rintro ⟨fits, -⟩
        exact absurd long fits.short
    · rw [(mapM_dumpsItem items).1 long]
      have distinct : (items.map Json.dumps).dedup.length = items.length ↔
          (items.map Json.dumps).Nodup := by
        rw [← length_dedup_eq, List.length_map]
      constructor
      · rintro ⟨nonempty, typed, texts, same, apart, rfl⟩
        obtain rfl := Except.ok.inj same
        exact ⟨⟨nonempty, typed, long, distinct.mp apart⟩, rfl⟩
      · rintro ⟨fits, rfl⟩
        exact ⟨fits.some, fits.typed, _, rfl, distinct.mpr fits.distinct, rfl⟩
  · rename_i noList
    constructor
    · intro same
      cases same
    · rintro (⟨same, -⟩ | ⟨items, same, -⟩)
      · rw [same] at found
        cases found
      · exact (noList items (Option.some.inj (found.symm.trans same))).elim

/-- An enum crashes if an integer of it cannot be written. -/
theorem crashes_enumOf {name : Text} {valueType : ValueType} :
    Crashes (enumOf name valueType.json definition) ↔
      ∃ items, definition.lookup (text "enum") = some (.arr items) ∧ items ≠ [] ∧
        (∀ item ∈ items, valueType.Admits item) ∧ SomeTooLong items := by
  unfold enumOf
  split <;> rename_i found
  · simp [found]
  · rename_i items
    simp only [found, Option.some.injEq, Json.arr.injEq, exists_eq_left', crashes_bind,
      crashes_require, require_eq_ok, forM_eq_ok, validateParameterType_eq_ok, exists_const,
      ParameterError.Foreign, and_false, false_or, not_crashes_pure, or_false]
    have typed : ¬ Crashes (items.forM fun item =>
        validateParameterType name valueType.json item) := by
      intro crash
      obtain ⟨-, item, -, -, -, crash⟩ := crashes_forM.mp crash
      exact not_crashes_validateParameterType crash
    have written : Crashes (items.mapM dumpsItem) ↔ SomeTooLong items := by
      by_cases long : SomeTooLong items
      · rw [(mapM_dumpsItem items).2 long, crashes_error]
        exact ⟨fun _ => long, fun _ => trivial⟩
      · rw [(mapM_dumpsItem items).1 long]
        exact ⟨fun crash => absurd crash not_crashes_ok, fun long' => absurd long' long⟩
    rw [written]
    constructor
    · rintro ⟨nonempty, crash | ⟨fits, long⟩⟩
      · exact absurd crash typed
      · exact ⟨nonempty, fits, long⟩
    · rintro ⟨nonempty, fits, long⟩
      exact ⟨nonempty, .inr ⟨fits, long⟩⟩
  · rename_i noList
    rw [crashes_error]
    constructor
    · exact False.elim
    · rintro ⟨items, same, -⟩
      exact (noList items (Option.some.inj (found.symm.trans same))).elim

theorem checkDefault_eq_ok {name : Text} {valueType : ValueType} :
    checkDefault name valueType.json definition enum = .ok () ↔
      ∀ value ∈ definition.lookup (text "default"), valueType.Admits value ∧
        ∀ items ∈ enum, isIn value items := by
  unfold checkDefault
  split <;> rename_i found
  · simp [found]
  · simp only [found, bind_eq_ok, validateParameterType_eq_ok, require_eq_ok, exists_const,
      Option.mem_def, Option.some.injEq, forall_eq']

theorem not_crashes_checkDefault {name : Text} :
    ¬ Crashes (checkDefault name valueType definition enum) := by
  unfold checkDefault
  split
  · exact not_crashes_ok
  · rw [crashes_bind, crashes_require]
    rintro (crash | ⟨_, -, -, foreign⟩)
    · exact not_crashes_validateParameterType crash
    · exact foreign

theorem isText_json_string {valueType : ValueType} :
    isText valueType.json "string" = true ↔ valueType = .string := by
  rw [isText_eq_true]
  exact ⟨fun same => json_injective same, fun same => same ▸ rfl⟩

theorem isText_json_numeric {valueType : ValueType} :
    (isText valueType.json "integer" = true ∨ isText valueType.json "number" = true) ↔
      valueType = .integer ∨ valueType = .number := by
  rw [isText_eq_true, isText_eq_true]
  refine or_congr ?_ ?_
  · exact ⟨fun same => json_injective same, fun same => same ▸ rfl⟩
  · exact ⟨fun same => json_injective same, fun same => same ▸ rfl⟩

/-- The limits, checked for the type. -/
theorem checkLimits_eq_ok {name : Text} {valueType : ValueType} :
    (checkLengths name valueType.json definition = .ok () ∧
      checkRange name valueType.json definition = .ok ()) ↔
        LimitsFit definition valueType := by
  have lengths : checkLengths name valueType.json definition = .ok () ↔
      if valueType = .string then
        ((∀ value ∈ get definition "minLength", isLength value) ∧
          ∀ value ∈ get definition "maxLength", isLength value) ∧
            ¬ lengthsReversed (get definition "minLength") (get definition "maxLength")
      else get definition "minLength" = none ∧ get definition "maxLength" = none := by
    unfold checkLengths
    simp only [isText_json_string]
    split <;> simp [bind_eq_ok, require_eq_ok, and_assoc]
  have range : checkRange name valueType.json definition = .ok () ↔
      if valueType = .integer ∨ valueType = .number then
        ((∀ value ∈ get definition "minimum", finiteNumber value) ∧
          ∀ value ∈ get definition "maximum", finiteNumber value) ∧
            ¬ rangeReversed (get definition "minimum") (get definition "maximum")
      else get definition "minimum" = none ∧ get definition "maximum" = none := by
    unfold checkRange
    simp only [isText_json_numeric]
    split <;> simp [bind_eq_ok, require_eq_ok, and_assoc]
  rw [lengths, range]
  constructor
  · rintro ⟨lengths, range⟩
    exact ⟨fun is => by rwa [if_pos is] at lengths, fun other => by rwa [if_neg other] at lengths,
      fun is => by rwa [if_pos is] at range, fun other => by rwa [if_neg other] at range⟩
  · intro fits
    constructor
    · split
      · exact fits.lengths ‹_›
      · exact fits.noLengths ‹_›
    · split
      · exact fits.range ‹_›
      · exact fits.noRange ‹_›

theorem not_crashes_limits {name : Text} :
    ¬ Crashes (checkLengths name valueType definition) ∧
      ¬ Crashes (checkRange name valueType definition) := by
  constructor
  · unfold checkLengths
    dsimp only
    split <;> simp [crashes_bind, crashes_require, ParameterError.Foreign]
  · unfold checkRange
    dsimp only
    split <;> simp [crashes_bind, crashes_require, ParameterError.Foreign]

theorem not_some_true {value : Option Json} :
    (∃ v ∈ value, isTrue v) ↔ value = some (.bool true) := by
  cases value with
  | none => simp
  | some v => simp [isTrue_eq_true]

/-- **The definition of a property** passes, and has a type. -/
theorem checkDefinition_eq_ok {name : Text} :
    checkDefinition name definition = .ok done ↔
      ∃ valueType, DefinitionFits definition valueType := by
  simp only [checkDefinition, bind_eq_ok, require_eq_ok, exists_const, valueTypeOf_eq_ok,
    not_some_true]
  constructor
  · rintro ⟨_, ⟨valueType, rfl, type⟩, description, marker, sensitive, enum, found, _, inEnum,
      _, lengths, range⟩
    have limits := checkLimits_eq_ok.mp ⟨lengths, range⟩
    have default := checkDefault_eq_ok.mp inEnum
    refine ⟨valueType, ⟨⟨type, description, marker, ?_⟩, limits, ?_, ?_⟩⟩
    · intro is
      obtain ⟨string, none⟩ := sensitive is
      exact ⟨isText_json_string.mp string, Option.isNone_iff_eq_none.mp none⟩
    · intro value member
      rcases enumOf_eq_ok.mp found with ⟨none, -⟩ | ⟨items, some, fits, -⟩
      · rw [none] at member
        cases member
      · exact ⟨items, Option.some.inj (member.symm.trans some), fits⟩
    · intro value member
      obtain ⟨typed, inside⟩ := default value member
      refine ⟨typed, fun items some => ?_⟩
      rcases enumOf_eq_ok.mp found with ⟨none, -⟩ | ⟨items', some', -, rfl⟩
      · rw [none] at some
        cases some
      · obtain rfl := Json.arr.inj (Option.some.inj (some.symm.trans some'))
        exact inside items rfl
  · rintro ⟨valueType, fits⟩
    obtain ⟨lengths, range⟩ := checkLimits_eq_ok.mpr fits.toLimitsFit
    have sensitive : definition.lookup (text "x-ops-composer-sensitive") = some (.bool true) →
        isText valueType.json "string" = true ∧
          (definition.lookup (text "default")).isNone = true := by
      intro is
      obtain ⟨string, none⟩ := fits.sensitive is
      exact ⟨isText_json_string.mpr string, Option.isNone_iff_eq_none.mpr none⟩
    cases found : definition.lookup (text "enum") with
    | none =>
        refine ⟨_, ⟨valueType, rfl, fits.type⟩, fits.description, fits.marker, sensitive, none,
          enumOf_eq_ok.mpr (.inl ⟨found, rfl⟩), (), checkDefault_eq_ok.mpr ?_, (), lengths, range⟩
        intro value member
        exact ⟨(fits.default value member).1, by simp⟩
    | some value =>
        obtain ⟨items, rfl, good⟩ := fits.enum value found
        refine ⟨_, ⟨valueType, rfl, fits.type⟩, fits.description, fits.marker, sensitive,
          some items, enumOf_eq_ok.mpr (.inr ⟨items, found, good, rfl⟩),
          (), checkDefault_eq_ok.mpr ?_, (), lengths, range⟩
        intro value member
        refine ⟨(fits.default value member).1, fun items' same => ?_⟩
        obtain rfl := Option.some.inj same
        exact (fits.default value member).2 items found

/-- The type of the property has no hash. -/
def Unhashable (definition : Members) : Prop :=
  (∃ items, definition.lookup (text "type") = some (.arr items)) ∨
    ∃ members, definition.lookup (text "type") = some (.obj members)

/-- The enum of the property, in order but for an integer that cannot be written. -/
def EnumTooLong (definition : Members) : Prop :=
  ∃ valueType items, HeadFits definition valueType ∧
    definition.lookup (text "enum") = some (.arr items) ∧ items ≠ [] ∧
      (∀ item ∈ items, valueType.Admits item) ∧ SomeTooLong items

/-- **When the check of a definition crashes.** -/
theorem crashes_checkDefinition {name : Text} :
    Crashes (checkDefinition name definition) ↔ Unhashable definition ∨ EnumTooLong definition := by
  simp only [checkDefinition, crashes_bind, crashes_require, require_eq_ok, exists_const,
    ParameterError.Foreign, and_false, false_or, crashes_valueTypeOf, not_some_true,
    not_crashes_checkDefault, not_crashes_limits.1, not_crashes_limits.2, or_false]
  refine or_congr Iff.rfl ?_
  constructor
  · rintro ⟨value, found, description, marker, sensitive, crash⟩
    obtain ⟨valueType, rfl, type⟩ := valueTypeOf_eq_ok.mp found
    obtain ⟨items, enum, nonempty, typed, long⟩ := crashes_enumOf.mp crash
    refine ⟨valueType, items, ⟨type, description, marker, fun is => ?_⟩, enum, nonempty, typed,
      long⟩
    obtain ⟨string, none⟩ := sensitive is
    exact ⟨isText_json_string.mp string, Option.isNone_iff_eq_none.mp none⟩
  · rintro ⟨valueType, items, head, enum, nonempty, typed, long⟩
    refine ⟨_, valueTypeOf_eq_ok.mpr ⟨valueType, rfl, head.type⟩, head.description, head.marker,
      fun is => ?_, crashes_enumOf.mpr ⟨items, enum, nonempty, typed, long⟩⟩
    obtain ⟨string, none⟩ := head.sensitive is
    exact ⟨isText_json_string.mpr string, Option.isNone_iff_eq_none.mpr none⟩

/-! ## Properties -/

/-- The name of a property, and the keywords of its definition. -/
structure FrameFits (name : Text) (definition : Members) : Prop where
  named : name ≠ []
  short : name.length ≤ maxNameLength
  keywords : ∀ key ∈ Json.keys definition, key ∈ propertyKeywords

/-- What is demanded of a property. -/
def PropertyFits (property : Text × Json) : Prop :=
  ∃ definition valueType, property.2 = .obj definition ∧ FrameFits property.1 definition ∧
    DefinitionFits definition valueType

theorem definitionOf_eq_ok {name : Text} {rawDefinition : Json} :
    definitionOf name rawDefinition = .ok definition ↔
      rawDefinition = .obj definition ∧ ∀ key ∈ Json.keys definition, key ∈ propertyKeywords := by
  unfold definitionOf
  split
  · rename_i members
    simp only [bind_eq_ok, require_eq_ok, exists_const, pure_eq_ok, Json.obj.injEq]
    constructor
    · rintro ⟨keywords, rfl⟩
      exact ⟨rfl, keywords⟩
    · rintro ⟨rfl, keywords⟩
      exact ⟨keywords, rfl⟩
  · rename_i other
    constructor
    · intro same
      cases same
    · rintro ⟨same, -⟩
      exact absurd same (other definition)

theorem not_crashes_definitionOf {name : Text} {rawDefinition : Json} :
    ¬ Crashes (definitionOf name rawDefinition) := by
  unfold definitionOf
  split
  · simp only [crashes_bind, crashes_require, ParameterError.Foreign, and_false, not_crashes_pure,
      exists_false, or_false, not_false_eq_true]
  · exact fun crash => crashes_error.mp crash

theorem checkProperty_eq_ok {property : Text × Json} :
    checkProperty property.1 property.2 = .ok done ↔ PropertyFits property := by
  simp only [checkProperty, bind_eq_ok, require_eq_ok, exists_const, definitionOf_eq_ok,
    checkDefinition_eq_ok]
  constructor
  · rintro ⟨⟨named, short⟩, definition, ⟨same, keywords⟩, valueType, fits⟩
    exact ⟨definition, valueType, same, ⟨named, short, keywords⟩, fits⟩
  · rintro ⟨definition, valueType, same, frame, fits⟩
    exact ⟨⟨frame.named, frame.short⟩, definition, ⟨same, frame.keywords⟩, valueType, fits⟩

theorem crashes_checkProperty {property : Text × Json} :
    Crashes (checkProperty property.1 property.2) ↔ ∃ definition, property.2 = .obj definition ∧
      FrameFits property.1 definition ∧ (Unhashable definition ∨ EnumTooLong definition) := by
  simp only [checkProperty, crashes_bind, crashes_require, require_eq_ok, exists_const,
    ParameterError.Foreign, and_false, false_or, not_crashes_definitionOf, definitionOf_eq_ok,
    crashes_checkDefinition]
  constructor
  · rintro ⟨⟨named, short⟩, definition, ⟨same, keywords⟩, crash⟩
    exact ⟨definition, same, ⟨named, short, keywords⟩, crash⟩
  · rintro ⟨definition, same, frame, crash⟩
    exact ⟨⟨frame.named, frame.short⟩, definition, ⟨same, frame.keywords⟩, crash⟩

/-! ## The root -/

/-- What is demanded of the root of a schema with the given properties. -/
structure RootFits (candidate properties : Members) : Prop where
  keywords : ∀ key ∈ Json.keys candidate, key ∈ rootKeywords
  type : candidate.lookup (text "type") = some (.str (text "object"))
  closed : candidate.lookup (text "additionalProperties") = some (.bool false)
  description : ∀ value ∈ candidate.lookup (text "description"), value.isStr
  found : candidate.lookup (text "properties") = none ∧ properties = [] ∨
    candidate.lookup (text "properties") = some (.obj properties) ∧
      properties.length ≤ maxProperties
  required : ∀ value ∈ candidate.lookup (text "required"), ∃ names : List Text,
    value = .arr (names.map .str) ∧ names.Nodup ∧ ∀ name ∈ names, name ∈ Json.keys properties

theorem propertiesOf_eq_ok :
    propertiesOf candidate = .ok properties ↔
      candidate.lookup (text "properties") = none ∧ properties = [] ∨
        candidate.lookup (text "properties") = some (.obj properties) ∧
          properties.length ≤ maxProperties := by
  unfold propertiesOf
  split <;> rename_i found
  · simp [found, eq_comm]
  · simp only [bind_eq_ok, require_eq_ok, exists_const, pure_eq_ok, found, reduceCtorEq, false_and,
      false_or, Option.some.injEq, Json.obj.injEq]
    constructor
    · rintro ⟨few, rfl⟩
      exact ⟨rfl, few⟩
    · rintro ⟨rfl, few⟩
      exact ⟨few, rfl⟩
  · rename_i other
    constructor
    · intro same
      cases same
    · rintro (⟨same, -⟩ | ⟨same, -⟩)
      · rw [same] at found
        cases found
      · exact (other properties (Option.some.inj (found.symm.trans same))).elim

theorem filterMap_string? (names : List Text) : (names.map Json.str).filterMap string? = names := by
  induction names with
  | nil => rfl
  | cons name names ih =>
      rw [List.map_cons, List.filterMap_cons]
      exact congrArg _ ih

/-- A list of strings. -/
theorem exists_strings {items : List Json} {P : Text → Prop}
    (all : ∀ item ∈ items, ∃ s ∈ string? item, P s) :
    ∃ names : List Text, items = names.map .str ∧ ∀ name ∈ names, P name := by
  induction items with
  | nil => exact ⟨[], rfl, by simp⟩
  | cons item items ih =>
      rw [List.forall_mem_cons] at all
      obtain ⟨s, is, holds⟩ := all.1
      obtain ⟨names, rfl, others⟩ := ih all.2
      cases item with
      | str t =>
          obtain rfl := Option.some.inj is
          exact ⟨t :: names, rfl, List.forall_mem_cons.mpr ⟨holds, others⟩⟩
      | _ => cases is

theorem checkRequired_eq_ok :
    checkRequired candidate properties = .ok done ↔
      ∀ value ∈ candidate.lookup (text "required"), ∃ names : List Text,
        value = .arr (names.map .str) ∧ names.Nodup ∧
          ∀ name ∈ names, name ∈ Json.keys properties := by
  unfold checkRequired
  split <;> rename_i found
  · simp [found]
  · rename_i items
    simp only [require_eq_ok, found, Option.mem_def, Option.some.injEq, forall_eq', Json.arr.injEq]
    constructor
    · rintro ⟨distinct, known⟩
      obtain ⟨names, rfl, inside⟩ := exists_strings known
      rw [filterMap_string?, List.length_map] at distinct
      exact ⟨names, rfl, length_dedup_eq.mp distinct.symm, inside⟩
    · rintro ⟨names, rfl, distinct, inside⟩
      rw [filterMap_string?, List.length_map]
      refine ⟨(length_dedup_eq.mpr distinct).symm, fun item member => ?_⟩
      obtain ⟨name, there, rfl⟩ := List.mem_map.mp member
      exact ⟨name, rfl, inside name there⟩
  · rename_i value other
    constructor
    · intro same
      cases same
    · intro all
      obtain ⟨names, same, -⟩ := all value found
      exact (other _ same).elim

theorem checkRoot_eq_ok :
    checkRoot candidate = .ok properties ↔ RootFits candidate properties := by
  have type : (∃ value ∈ candidate.lookup (text "type"), isText value "object") ↔
      candidate.lookup (text "type") = some (.str (text "object")) := by
    simp only [isText_eq_true, exists_eq_right, Option.mem_def]
  have closed : (∃ value ∈ candidate.lookup (text "additionalProperties"), isFalse value) ↔
      candidate.lookup (text "additionalProperties") = some (.bool false) := by
    simp only [isFalse_eq_true, exists_eq_right, Option.mem_def]
  simp only [checkRoot, bind_eq_ok, require_eq_ok, exists_const, pure_eq_ok, propertiesOf_eq_ok,
    checkRequired_eq_ok, type, closed]
  constructor
  · rintro ⟨keywords, ⟨type, closed⟩, description, _, found, required, rfl⟩
    exact ⟨keywords, type, closed, description, found, required⟩
  · intro fits
    exact ⟨fits.keywords, ⟨fits.type, fits.closed⟩, fits.description, properties, fits.found,
      fits.required, rfl⟩

theorem not_crashes_checkRoot : ¬ Crashes (checkRoot candidate) := by
  have properties : ¬ Crashes (propertiesOf candidate) := by
    unfold propertiesOf
    split <;> simp only [crashes_bind, crashes_require, crashes_error, ParameterError.Foreign,
      and_false, not_crashes_pure, not_crashes_ok, exists_false, or_false, not_false_eq_true]
  have required : ∀ properties, ¬ Crashes (checkRequired candidate properties) := by
    intro properties
    unfold checkRequired
    split <;> simp [crashes_require, ParameterError.Foreign]
  simp only [checkRoot, crashes_bind, crashes_require, ParameterError.Foreign, and_false,
    properties, required, not_crashes_pure, exists_false, or_false, not_false_eq_true]

/-! ## The text -/

/-- The schema can be written, and the text is short enough. -/
def TextFits (candidate : Members) : Prop :=
  ∃ encoded bytes, Json.dumpsUnicode (.obj candidate) = some encoded ∧
    Text.encode encoded = some bytes ∧ bytes.length ≤ maxSchemaBytes

theorem checkText_eq_ok :
    checkText candidate = .ok done ↔ TextFits candidate := by
  unfold checkText TextFits
  split <;> rename_i written
  · simp [written]
  · split <;> rename_i encoded
    · simp [written, encoded]
    · simp [written, encoded, require_eq_ok]

theorem crashes_checkText : Crashes (checkText candidate) ↔
    Json.PlainNumbers (.obj candidate) ∧ ¬ Json.ValidTexts (.obj candidate) := by
  rw [← Json.isSome_dumpsUnicode]
  unfold checkText
  split <;> rename_i written
  · simp [written, ParameterError.Foreign]
  · rename_i encoded
    have valid : (Text.encode encoded).isSome ↔ Json.ValidTexts (.obj candidate) :=
      Text.encode_isSome_iff.trans (Json.valid_dumpsUnicode _ _ written)
    rw [← valid, written]
    split <;> rename_i bytes
    · simp [bytes, ParameterError.Foreign]
    · simp [bytes, crashes_require, ParameterError.Foreign]

/-! ## The schema -/

/-- What is demanded of a schema. -/
structure SchemaFits (candidate properties : Members) : Prop where
  root : RootFits candidate properties
  each : ∀ property ∈ properties, PropertyFits property
  text : TextFits candidate

/-- **`validate_parameter_schema`**: what it accepts, and what it returns. -/
theorem validateParameterSchema_eq_ok {schema : Option Members} {normalized : Members} :
    validateParameterSchema schema = .ok normalized ↔
      (∃ properties, SchemaFits (candidateOf schema) properties) ∧
        normalized = Json.sorted (candidateOf schema) := by
  simp only [validateParameterSchema, bind_eq_ok, checkRoot_eq_ok, forM_eq_ok, exists_const,
    checkProperty_eq_ok, checkText_eq_ok, pure_eq_ok]
  constructor
  · rintro ⟨properties, root, each, fits, rfl⟩
    exact ⟨⟨properties, root, each, fits⟩, rfl⟩
  · rintro ⟨⟨properties, fits⟩, rfl⟩
    exact ⟨properties, fits.root, fits.each, fits.text, rfl⟩

/-- The schema is returned, or refused with one of the two errors. -/
def FailsCleanly {α : Type} (outcome : Except ParameterError α) : Prop :=
  (∃ result, outcome = .ok result) ∨
    (∃ message details, outcome = .error (.projectInvalid message details)) ∨
      ∃ message details, outcome = .error (.validation message details)

theorem failsCleanly_iff {α : Type} {outcome : Except ParameterError α} :
    FailsCleanly outcome ↔ ¬ Crashes outcome := by
  constructor
  · rintro (⟨result, rfl⟩ | ⟨message, details, rfl⟩ | ⟨message, details, rfl⟩) crash
    · exact not_crashes_ok crash
    · exact crashes_error.mp crash
    · exact crashes_error.mp crash
  · intro clean
    cases outcome with
    | ok result => exact .inl ⟨result, rfl⟩
    | error error =>
        rw [crashes_error] at clean
        cases error with
        | projectInvalid message details => exact .inr (.inl ⟨message, details, rfl⟩)
        | validation message details => exact .inr (.inr ⟨message, details, rfl⟩)
        | _ => exact absurd trivial clean

/-- Of the properties of a schema whose root is in order, the first one that does
not pass has a type with a hash, and no enum that fails for an integer that is too
long; and if all of them pass, the texts in the schema have no surrogates, unless
a number in it cannot be written. -/
def CleanSchema (candidate : Members) : Prop :=
  ∀ properties, RootFits candidate properties →
    (∀ before name definition after, properties = before ++ (name, .obj definition) :: after →
      (∀ property ∈ before, PropertyFits property) → FrameFits name definition →
        ¬ Unhashable definition ∧ ¬ EnumTooLong definition) ∧
      ((∀ property ∈ properties, PropertyFits property) → Json.PlainNumbers (.obj candidate) →
        Json.ValidTexts (.obj candidate))

/-- **When a schema that is given is returned or refused**, and no other exception
is raised. -/
theorem validateParameterSchema_failsCleanly_iff (schema : Option Members) :
    FailsCleanly (validateParameterSchema schema) ↔ CleanSchema (candidateOf schema) := by
  rw [failsCleanly_iff]
  simp only [validateParameterSchema, crashes_bind, checkRoot_eq_ok, forM_eq_ok, exists_const,
    checkProperty_eq_ok, not_crashes_checkRoot, false_or, crashes_forM, crashes_checkProperty,
    crashes_checkText, not_crashes_pure, and_false, or_false]
  constructor
  · intro clean properties root
    constructor
    · intro before name definition after split passed frame
      refine not_or.mp fun crash => clean ⟨properties, root, .inl ?_⟩
      exact ⟨before, _, after, split, passed, definition, rfl, frame, crash⟩
    · intro each plain
      by_contra surrogate
      exact clean ⟨properties, root, .inr ⟨each, plain, surrogate⟩⟩
  · rintro clean ⟨properties, root, crash⟩
    obtain ⟨first, last⟩ := clean properties root
    rcases crash with ⟨before, ⟨name, _⟩, after, split, passed, definition, rfl, frame, crash⟩ |
      ⟨each, plain, surrogate⟩
    · exact not_or.mpr (first before name definition after split passed frame) crash
    · exact surrogate (last each plain)

/-- A schema in order, with the given members. -/
def schemaWith (members : Members) : Members :=
  [(text "type", .str (text "object")), (text "additionalProperties", .bool false)] ++ members

/-- A property whose type is a list. -/
def listTyped : Members :=
  schemaWith [(text "properties",
    .obj [(text "a", .obj [(text "type", .arr [.str (text "string")])])])]

/-- A description with a lone surrogate. -/
def loneSurrogate : Members := schemaWith [(text "description", .str [0xD800])]

/-- **Two schemas that end in an exception of Python**: one that has a list where
a type is expected, and one that would be accepted. -/
theorem validateParameterSchema_failsCleanly_fails :
    validateParameterSchema (some listTyped) = .error .typeError ∧
      validateParameterSchema (some loneSurrogate) = .error .unicodeEncode ∧
        ¬ FailsCleanly (validateParameterSchema (some listTyped)) ∧
          ¬ FailsCleanly (validateParameterSchema (some loneSurrogate)) := by
  have typed : validateParameterSchema (some listTyped) = .error .typeError := by rfl
  have described : validateParameterSchema (some loneSurrogate) = .error .unicodeEncode := by rfl
  refine ⟨typed, described, fun clean => ?_, fun clean => ?_⟩
  · exact failsCleanly_iff.mp clean ⟨_, typed, trivial⟩
  · exact failsCleanly_iff.mp clean ⟨_, described, trivial⟩

end OpsComposer.Services.PlaybookProject
