import OpsComposer.Projects.ParameterSchemas

/-!
# Accepted parameters

`validate_parameters` for an accepted schema: what it demands of the values that
are supplied (`Satisfies`, `Acceptable`), what it returns for them, and which
accepted schemas it cannot work with.

The schema that the loop goes through is the normalised one, whose dicts are in
the order of their keys.  The definitions in it have nothing but scalars and lists
of scalars for their members, so that they answer every lookup as the ones that
were given (`DefinitionFits.lookup_sorted`).
-/

set_option autoImplicit false

namespace OpsComposer.Services.PlaybookProject

open Foundations

/-! ## Sorted definitions -/

/-- A value of a type has no dicts that could be sorted. -/
theorem ValueType.Admits.sortKeys {valueType : ValueType} {value : Json}
    (admits : valueType.Admits value) : Json.sortKeys value = value := by
  cases valueType with
  | string =>
      obtain ⟨s, rfl⟩ := admits
      rw [Json.sortKeys]
  | integer =>
      obtain ⟨n, rfl⟩ := admits
      rw [Json.sortKeys]
  | boolean =>
      obtain ⟨b, rfl⟩ := admits
      rw [Json.sortKeys]
  | number =>
      obtain ⟨q, number⟩ := admits
      cases value with
      | int n | float literal => rw [Json.sortKeys]
      | _ => cases number

theorem sortKeys_of_get {definition : Members} {key : String} {value : Json}
    (found : definition.lookup (text key) = some value)
    (scalar : ∀ v ∈ get definition key, Json.sortKeys v = v) : Json.sortKeys value = value := by
  cases value with
  | null => rw [Json.sortKeys]
  | _ => exact scalar _ (by rw [get, found]; rfl)

variable {definition others : Members} {valueType : ValueType}

variable {value : Json} {values : Members} {name : Text} {done : Unit}
  {result : ValidatedParameters}

/-- The members of a definition are as they are when their keys are sorted. -/
theorem DefinitionFits.sortKeys (fits : DefinitionFits definition valueType) {key : Text}
    (known : key ∈ propertyKeywords) (found : definition.lookup key = some value) :
    Json.sortKeys value = value := by
  have str : ∀ {v : Json}, v.isStr = true → Json.sortKeys v = v := by
    intro v is
    obtain ⟨s, rfl⟩ := isStr_eq_true.mp is
    rw [Json.sortKeys]
  have length : ∀ {v : Json}, isLength v = true → Json.sortKeys v = v := by
    intro v is
    cases v with
    | int n => rw [Json.sortKeys]
    | _ => cases is
  have number : ∀ {v : Json}, finiteNumber v = true → Json.sortKeys v = v := by
    intro v is
    have admits : ValueType.number.Admits v := finiteNumber_eq_true.mp is
    exact admits.sortKeys
  simp only [propertyKeywords, List.map_cons, List.map_nil, List.mem_cons, List.not_mem_nil,
    or_false] at known
  rcases known with rfl | rfl | rfl | rfl | rfl | rfl | rfl | rfl | rfl
  · obtain rfl := Option.some.inj (found.symm.trans fits.type)
    rw [ValueType.json, Json.sortKeys]
  · exact sortKeys_of_get found fun v member => str (fits.description v member)
  · exact (fits.default value found).1.sortKeys
  · obtain ⟨items, rfl, enum⟩ := fits.enum value found
    rw [Json.sortKeys, Json.sortItems_eq]
    have same : items.map Json.sortKeys = items.map id :=
      List.map_congr_left fun item member => (enum.typed item member).sortKeys
    rw [same, List.map_id]
  · refine sortKeys_of_get found fun v member => ?_
    by_cases numeric : valueType = .integer ∨ valueType = .number
    · exact number ((fits.range numeric).1.1 v member)
    · rw [(fits.noRange numeric).1] at member
      cases member
  · refine sortKeys_of_get found fun v member => ?_
    by_cases numeric : valueType = .integer ∨ valueType = .number
    · exact number ((fits.range numeric).1.2 v member)
    · rw [(fits.noRange numeric).2] at member
      cases member
  · refine sortKeys_of_get found fun v member => ?_
    by_cases string : valueType = .string
    · exact length ((fits.lengths string).1.1 v member)
    · rw [(fits.noLengths string).1] at member
      cases member
  · refine sortKeys_of_get found fun v member => ?_
    by_cases string : valueType = .string
    · exact length ((fits.lengths string).1.2 v member)
    · rw [(fits.noLengths string).2] at member
      cases member
  · obtain ⟨b, rfl⟩ := isBool_eq_true.mp (fits.marker value found)
    rw [Json.sortKeys]

/-- **A definition in the normalised schema** answers every lookup as before. -/
theorem DefinitionFits.lookup_sorted (fits : DefinitionFits definition valueType)
    (frame : FrameFits name definition) (distinct : (Json.keys definition).Nodup) (key : Text) :
    (Json.sorted definition).lookup key = definition.lookup key := by
  rw [Json.lookup_sorted distinct]
  cases found : definition.lookup key with
  | none => rfl
  | some value =>
      have known := frame.keywords key (List.mem_map_of_mem (Json.mem_of_lookup found))
      rw [Option.map_some, fits.sortKeys known found]

/-- A definition is what it answers to lookups. -/
theorem get_of_lookup (same : ∀ key, others.lookup key = definition.lookup key) (key : String) :
    get others key = get definition key := by
  rw [get, same, get]

theorem DefinitionFits.of_lookup (fits : DefinitionFits definition valueType)
    (same : ∀ key, others.lookup key = definition.lookup key) :
    DefinitionFits others valueType := by
  have gets := get_of_lookup same
  refine ⟨⟨?_, ?_, ?_, ?_⟩, ⟨?_, ?_, ?_, ?_⟩, ?_, ?_⟩ <;> simp only [same, gets]
  · exact fits.type
  · exact fits.description
  · exact fits.marker
  · exact fits.sensitive
  · exact fits.lengths
  · exact fits.noLengths
  · exact fits.range
  · exact fits.noRange
  · exact fits.enum
  · exact fits.default

/-! ## Values -/

/-- The limits of the length and of the range. -/
structure WithinLimits (definition : Members) (value : Json) : Prop where
  minLength : ∀ n s, definition.lookup (text "minLength") = some (.int n) → value = .str s →
    n ≤ s.length
  maxLength : ∀ n s, definition.lookup (text "maxLength") = some (.int n) → value = .str s →
    s.length ≤ n
  minimum : ∀ limit low x, definition.lookup (text "minimum") = some limit →
    Json.number? limit = some low → Json.number? value = some x → low ≤ x
  maximum : ∀ limit high x, definition.lookup (text "maximum") = some limit →
    Json.number? limit = some high → Json.number? value = some x → x ≤ high

/-- The rules that a value of a parameter has to meet. -/
structure Satisfies (definition : Members) (value : Json) : Prop
    extends WithinLimits definition value where
  typed : ∃ valueType : ValueType, definition.lookup (text "type") = some valueType.json ∧
    valueType.Admits value
  enum : ∀ items, definition.lookup (text "enum") = some (.arr items) →
    ∃ item ∈ items, Json.equal item value

theorem satisfies_of_lookup (same : ∀ key, others.lookup key = definition.lookup key) :
    Satisfies others value ↔ Satisfies definition value := by
  constructor
  · rintro ⟨⟨minLength, maxLength, minimum, maximum⟩, typed, enum⟩
    simp only [same] at *
    exact ⟨⟨minLength, maxLength, minimum, maximum⟩, typed, enum⟩
  · rintro ⟨⟨minLength, maxLength, minimum, maximum⟩, typed, enum⟩
    exact ⟨⟨by simpa only [same] using minLength, by simpa only [same] using maxLength,
      by simpa only [same] using minimum, by simpa only [same] using maximum⟩,
      by simpa only [same] using typed, by simpa only [same] using enum⟩

theorem checkEnum_eq_ok (fits : DefinitionFits definition valueType) :
    checkEnum name definition value = .ok done ↔
      ∀ items, definition.lookup (text "enum") = some (.arr items) →
        ∃ item ∈ items, Json.equal item value := by
  unfold checkEnum
  split <;> rename_i found
  · simp [found]
  · simp [found, require_eq_ok, isIn]
  · rename_i other
    obtain ⟨items, rfl, -⟩ := fits.enum _ found
    exact (other items rfl).elim

/-- A limit of the length is an integer, if there is one. -/
theorem mem_lengthLimit (fits : DefinitionFits definition valueType) {key : String}
    (known : key = "minLength" ∨ key = "maxLength") {n : Int} :
    n ∈ lengthLimit definition key ↔ definition.lookup (text key) = some (.int n) := by
  have length : ∀ v ∈ get definition key, isLength v := by
    intro v member
    by_cases string : valueType = .string
    · rcases known with rfl | rfl
      · exact (fits.lengths string).1.1 v member
      · exact (fits.lengths string).1.2 v member
    · obtain ⟨noMinimum, noMaximum⟩ := fits.noLengths string
      rcases known with rfl | rfl
      · rw [noMinimum] at member
        cases member
      · rw [noMaximum] at member
        cases member
  unfold lengthLimit
  cases found : definition.lookup (text key) with
  | none => simp [get, found]
  | some value =>
      cases value with
      | null | int m => simp [get, found]
      | _ => exact absurd (length _ (by rw [get, found]; rfl)) (by simp [isLength])

/-- A limit of the range is a number, if there is one. -/
theorem mem_rangeLimit (fits : DefinitionFits definition valueType) {key : String}
    (known : key = "minimum" ∨ key = "maximum") {limit : Json} :
    limit ∈ rangeLimit definition key ↔ definition.lookup (text key) = some limit ∧
      ∃ q, Json.number? limit = some q := by
  have number : ∀ v ∈ get definition key, ∃ q, Json.number? v = some q := by
    intro v member
    by_cases numeric : valueType = .integer ∨ valueType = .number
    · rcases known with rfl | rfl
      · exact finiteNumber_eq_true.mp ((fits.range numeric).1.1 v member)
      · exact finiteNumber_eq_true.mp ((fits.range numeric).1.2 v member)
    · obtain ⟨noMinimum, noMaximum⟩ := fits.noRange numeric
      rcases known with rfl | rfl
      · rw [noMinimum] at member
        cases member
      · rw [noMaximum] at member
        cases member
  have found : ∀ v, v ∈ get definition key ↔
      definition.lookup (text key) = some v ∧ v ≠ .null := by
    intro v
    unfold get
    split
    · rename_i null
      rw [null]
      constructor
      · intro none
        cases none
      · rintro ⟨same, other⟩
        exact absurd (Option.some.inj same).symm other
    · rename_i some
      constructor
      · intro member
        exact ⟨member, fun null => some (null ▸ member)⟩
      · exact And.left
  rw [rangeLimit, Option.mem_def, Option.filter_eq_some_iff]
  constructor
  · rintro ⟨member, -⟩
    exact ⟨((found limit).mp member).1, number limit member⟩
  · rintro ⟨same, q, value⟩
    refine ⟨(found limit).mpr ⟨same, ?_⟩, ?_⟩
    · rintro rfl
      cases value
    · cases limit with
      | int n => rfl
      | float literal => exact Option.isSome_iff_exists.mpr ⟨q, value⟩
      | _ => cases value

theorem numeric?_of_number? {q : ℚ} (number : Json.number? value = some q) :
    Json.numeric? value = some q := by
  cases value with
  | bool b => cases number
  | _ => exact number

theorem not_less_iff {a b : Json} (left : Json.numeric? a = Json.number? a)
    (right : Json.numeric? b = Json.number? b) :
    ¬ Json.less a b ↔ ∀ x y, Json.number? a = some x → Json.number? b = some y → y ≤ x := by
  rw [Json.less, left, right]
  cases Json.number? a <;> cases Json.number? b <;> simp

/-- The limits of the range, for a number. -/
theorem range_iff (fits : DefinitionFits definition valueType)
    (plain : Json.numeric? value = Json.number? value) :
    ((∀ minimum ∈ rangeLimit definition "minimum", ¬ Json.less value minimum) ↔
      ∀ limit low x, definition.lookup (text "minimum") = some limit →
        Json.number? limit = some low → Json.number? value = some x → low ≤ x) ∧
    ((∀ maximum ∈ rangeLimit definition "maximum", ¬ Json.less maximum value) ↔
      ∀ limit high x, definition.lookup (text "maximum") = some limit →
        Json.number? limit = some high → Json.number? value = some x → x ≤ high) := by
  constructor
  · simp only [mem_rangeLimit fits (.inl rfl)]
    constructor
    · intro above limit low x found number is
      have limited := above limit ⟨found, low, number⟩
      rw [not_less_iff plain ((numeric?_of_number? number).trans number.symm)] at limited
      exact limited x low is number
    · rintro above limit ⟨found, low, number⟩
      rw [not_less_iff plain ((numeric?_of_number? number).trans number.symm)]
      exact fun x y is number' => above limit y x found number' is
  · simp only [mem_rangeLimit fits (.inr rfl)]
    constructor
    · intro below limit high x found number is
      have limited := below limit ⟨found, high, number⟩
      rw [not_less_iff ((numeric?_of_number? number).trans number.symm) plain] at limited
      exact limited high x number is
    · rintro below limit ⟨found, high, number⟩
      rw [not_less_iff ((numeric?_of_number? number).trans number.symm) plain]
      exact fun x y number' is => below limit x y found number' is

/-- **The limits are checked** for strings and for numbers. -/
theorem checkLimits_value (fits : DefinitionFits definition valueType) :
    checkLimits name definition value = .ok done ↔
      WithinLimits definition value := by
  have numbers : Json.numeric? value = Json.number? value → (∀ s, value ≠ .str s) →
      (((∀ minimum ∈ rangeLimit definition "minimum", ¬ Json.less value minimum) ∧
        ∀ maximum ∈ rangeLimit definition "maximum", ¬ Json.less maximum value) ↔
          WithinLimits definition value) := by
    intro plain noString
    rw [(range_iff fits plain).1, (range_iff fits plain).2]
    constructor
    · rintro ⟨minimum, maximum⟩
      exact ⟨fun _ s _ same => absurd same (noString s), fun _ s _ same => absurd same (noString s),
        minimum, maximum⟩
    · intro within
      exact ⟨within.minimum, within.maximum⟩
  have nothing : Json.number? value = none → (∀ s, value ≠ .str s) →
      WithinLimits definition value := by
    intro none noString
    refine ⟨fun _ s _ same => absurd same (noString s), fun _ s _ same => absurd same (noString s),
      fun _ _ x _ _ number => ?_, fun _ _ x _ _ number => ?_⟩
    · cases none.symm.trans number
    · cases none.symm.trans number
  cases value with
  | str s =>
      simp only [checkLimits, bind_eq_ok, require_eq_ok, exists_const,
        mem_lengthLimit fits (.inl rfl), mem_lengthLimit fits (.inr rfl)]
      constructor
      · rintro ⟨low, high⟩
        refine ⟨fun n t found same => ?_, fun n t found same => ?_, fun _ _ x _ _ number => ?_,
          fun _ _ x _ _ number => ?_⟩
        · obtain rfl := Json.str.inj same
          exact low n found
        · obtain rfl := Json.str.inj same
          exact high n found
        · cases number
        · cases number
      · intro within
        exact ⟨fun n found => within.minLength n s found rfl,
          fun n found => within.maxLength n s found rfl⟩
  | int n | float literal =>
      simp only [checkLimits, bind_eq_ok, require_eq_ok, exists_const]
      exact numbers rfl (by simp)
  | null | bool b | arr items | obj members => exact ⟨fun _ => nothing rfl (by simp), fun _ => rfl⟩

/-- **The rules for one value**, as they are checked. -/
theorem checkValue_eq_ok (fits : DefinitionFits definition valueType) :
    checkValue name definition value = .ok done ↔ Satisfies definition value := by
  simp only [checkValue, fits.type, bind_eq_ok, validateParameterType_eq_ok, checkEnum_eq_ok fits,
    checkLimits_value fits, exists_const]
  constructor
  · rintro ⟨typed, enum, within⟩
    exact ⟨within, ⟨valueType, fits.type, typed⟩, enum⟩
  · intro satisfies
    obtain ⟨other, same, typed⟩ := satisfies.typed
    rw [fits.type] at same
    rw [json_injective (Option.some.inj same)]
    exact ⟨typed, satisfies.enum, satisfies.toWithinLimits⟩

/-! ## The loop -/

/-- The value that a parameter has: the one that is supplied, or the default. -/
def given (values : Members) (name : Text) (definition : Members) : Option Json :=
  (values.lookup name).or (definition.lookup (text "default"))

/-- The parameter is marked. -/
def sensitive (definition : Members) : Bool :=
  (definition.lookup (text "x-ops-composer-sensitive")).any isTrue

/-- What a property adds to the public values. -/
def publicOf (values : Members) (property : Text × Json) : Option (Text × Json) :=
  match property.2 with
  | .obj definition =>
      if sensitive definition then none
      else (given values property.1 definition).map fun value => (property.1, value)
  | _ => none

/-- What a property adds to the secret values. -/
def secretOf (values : Members) (property : Text × Json) : Option (Text × Text) :=
  match property.2 with
  | .obj definition =>
      if sensitive definition then
        ((given values property.1 definition).bind string?).map fun value => (property.1, value)
      else none
  | _ => none

/-- A property has a value that meets the rules, or needs none. -/
def Passes (required : List Text) (values : Members) (property : Text × Json) : Prop :=
  ∀ definition, property.2 = .obj definition →
    (given values property.1 definition = none → property.1 ∉ required) ∧
      ∀ value, given values property.1 definition = some value → Satisfies definition value

/-- A property whose definition fits. -/
def Defined (property : Text × Json) : Prop :=
  ∃ definition valueType, property.2 = .obj definition ∧ DefinitionFits definition valueType

/-- The values with the one of the next property. -/
def ValidatedParameters.add (result : ValidatedParameters) (values : Members)
    (property : Text × Json) : ValidatedParameters :=
  { result with
    publicValues := result.publicValues ++ (publicOf values property).toList
    secretValues := result.secretValues ++ (secretOf values property).toList }

theorem passes_obj {required : List Text} :
    Passes required values (name, .obj definition) ↔
      (given values name definition = none → name ∉ required) ∧
        ∀ value, given values name definition = some value → Satisfies definition value := by
  constructor
  · exact fun passes => passes definition rfl
  · rintro all other same
    obtain rfl := Json.obj.inj same
    exact all

theorem valueOf_eq_ok {required : List Text}
    {value : Option Json} : valueOf required values name definition = .ok value ↔
      value = given values name definition ∧ (value = none → name ∉ required) := by
  unfold valueOf given
  cases values.lookup name with
  | some supplied =>
      constructor
      · intro same
        obtain rfl := Except.ok.inj same
        exact ⟨rfl, fun none => nomatch none⟩
      · rintro ⟨rfl, -⟩
        rfl
  | none =>
      cases definition.lookup (text "default") with
      | some default =>
          constructor
          · intro same
            obtain rfl := Except.ok.inj same
            exact ⟨rfl, fun none => nomatch none⟩
          · rintro ⟨rfl, -⟩
            rfl
      | none =>
          simp only [bind_eq_ok, require_eq_ok, exists_const, pure_eq_ok, Option.or_none]
          constructor
          · rintro ⟨absent, rfl⟩
            exact ⟨rfl, fun _ => absent⟩
          · rintro ⟨rfl, absent⟩
            exact ⟨absent rfl, rfl⟩

theorem marked_iff (fits : DefinitionFits definition valueType) :
    (∃ marker ∈ definition.lookup (text "x-ops-composer-sensitive"), marker.truthy) ↔
      sensitive definition = true := by
  unfold sensitive
  cases found : definition.lookup (text "x-ops-composer-sensitive") with
  | none => simp
  | some marker =>
      obtain ⟨b, rfl⟩ := isBool_eq_true.mp (fits.marker marker found)
      simp [Json.truthy, isTrue]

theorem sensitive_iff : sensitive definition = true ↔
    definition.lookup (text "x-ops-composer-sensitive") = some (.bool true) := by
  rw [sensitive, Option.any_eq_true]
  simp [isTrue_eq_true]

/-- What is stored of a value that meets the rules. -/
theorem store_eq (fits : DefinitionFits definition valueType)
    (has : given values name definition = some value) (satisfies : Satisfies definition value) :
    store result name definition value = .ok (result.add values (name, .obj definition)) := by
  unfold store
  simp only [marked_iff fits]
  by_cases secret : sensitive definition
  · obtain ⟨other, same, typed⟩ := satisfies.typed
    have string : valueType = .string := (fits.sensitive (sensitive_iff.mp secret)).1
    rw [fits.type, string] at same
    rw [← json_injective (Option.some.inj same)] at typed
    obtain ⟨s, rfl⟩ := typed
    simp [secret, ValidatedParameters.add, publicOf, secretOf, has, string?]
  · simp [secret, ValidatedParameters.add, publicOf, secretOf, has]

theorem validateParameter_eq_ok {required : List Text}
    {result' : ValidatedParameters} {property : Text × Json} (defined : Defined property) :
    validateParameter required values result property = .ok result' ↔
      Passes required values property ∧ result' = result.add values property := by
  obtain ⟨name, raw⟩ := property
  obtain ⟨definition, valueType, rfl, fits⟩ := defined
  rw [validateParameter, bind_eq_ok, passes_obj]
  simp only [valueOf_eq_ok]
  constructor
  · rintro ⟨value, ⟨has, needs⟩, rest⟩
    cases value with
    | none =>
        obtain rfl := pure_eq_ok.mp rest
        rw [← has]
        refine ⟨⟨needs, fun _ some => nomatch some⟩, ?_⟩
        simp [ValidatedParameters.add, publicOf, secretOf, ← has]
    | some value =>
        obtain ⟨_, checked, stored⟩ := bind_eq_ok.mp rest
        have satisfies := (checkValue_eq_ok fits).mp checked
        rw [store_eq fits has.symm satisfies] at stored
        refine ⟨⟨fun none => ?_, fun other same => ?_⟩, (Except.ok.inj stored).symm⟩
        · rw [none] at has
          cases has
        · obtain rfl := Option.some.inj (has.trans same)
          exact satisfies
  · rintro ⟨⟨needs, rules⟩, rfl⟩
    refine ⟨given values name definition, ⟨rfl, needs⟩, ?_⟩
    cases has : given values name definition with
    | none =>
        refine pure_eq_ok.mpr ?_
        simp [ValidatedParameters.add, publicOf, secretOf, has]
    | some value =>
        exact bind_eq_ok.mpr ⟨(), (checkValue_eq_ok fits).mpr (rules value has),
          store_eq fits has (rules value has)⟩

/-- What the properties add. -/
theorem ValidatedParameters.foldl_add (properties : Members) (result : ValidatedParameters) :
    properties.foldl (fun result property => result.add values property) result =
      { result with
        publicValues := result.publicValues ++ properties.filterMap (publicOf values)
        secretValues := result.secretValues ++ properties.filterMap (secretOf values) } := by
  induction properties generalizing result with
  | nil => simp
  | cons property properties ih =>
      rw [List.foldl_cons, ih]
      simp only [ValidatedParameters.add, List.filterMap_cons, List.append_assoc]
      cases publicOf values property <;> cases secretOf values property <;> rfl

/-- **The loop over the properties.** -/
theorem foldlM_validateParameter {required : List Text} {properties : Members}
    (defined : ∀ property ∈ properties, Defined property) {result' : ValidatedParameters} :
    properties.foldlM (validateParameter required values) result = .ok result' ↔
      (∀ property ∈ properties, Passes required values property) ∧
        result' = properties.foldl (fun result property => result.add values property) result := by
  induction properties generalizing result with
  | nil =>
      rw [List.foldlM_nil, pure_eq_ok, eq_comm]
      simp
  | cons property properties ih =>
      rw [List.forall_mem_cons] at defined
      rw [List.foldlM_cons, bind_eq_ok, List.forall_mem_cons, List.foldl_cons]
      simp only [validateParameter_eq_ok defined.1, ih defined.2]
      constructor
      · rintro ⟨_, ⟨first, rfl⟩, others, rfl⟩
        exact ⟨⟨first, others⟩, rfl⟩
      · rintro ⟨⟨first, others⟩, rfl⟩
        exact ⟨_, ⟨first, rfl⟩, others, rfl⟩

/-! ## The normalised schema -/

/-- The names that a schema requires. -/
def requiredNames (candidate : Members) : List Text :=
  match candidate.lookup (text "required") with
  | some (.arr items) => items.filterMap string?
  | _ => []

/-- An accepted schema: its dicts, and what has been demanded of it. -/
structure Accepted (candidate properties : Members) : Prop where
  keyed : Json.Keyed (.obj candidate)
  found : candidate.lookup (text "properties") = some (.obj properties)
  fits : SchemaFits candidate properties

section Normalised

variable {candidate properties : Members}

theorem Accepted.distinct (accepted : Accepted candidate properties) :
    (Json.keys properties).Nodup :=
  (Json.keyed_obj.mp (accepted.keyed.lookup accepted.found)).1

/-- The definitions of the schema, with the keys of their members. -/
theorem Accepted.defines (accepted : Accepted candidate properties) {property : Text × Json}
    (member : property ∈ properties) : ∃ definition valueType, property.2 = .obj definition ∧
      (Json.keys definition).Nodup ∧ FrameFits property.1 definition ∧
        DefinitionFits definition valueType := by
  obtain ⟨definition, valueType, same, frame, fits⟩ := accepted.fits.each property member
  have keyed := (Json.keyed_obj.mp (accepted.keyed.lookup accepted.found)).2 property member
  rw [same] at keyed
  exact ⟨definition, valueType, same, (Json.keyed_obj.mp keyed).1, frame, fits⟩

/-- A property of the normalised schema is one of the schema, and answers the same
lookups. -/
theorem Accepted.mem_sorted (accepted : Accepted candidate properties) {property : Text × Json} :
    property ∈ Json.sorted properties ↔ ∃ definition, (property.1, .obj definition) ∈ properties ∧
      property.2 = .obj (Json.sorted definition) := by
  rw [Json.mem_sorted]
  constructor
  · rintro ⟨value, member, same⟩
    obtain ⟨definition, -, rfl, -⟩ := accepted.defines member
    exact ⟨definition, member, by rw [same, Json.sortKeys_obj]⟩
  · rintro ⟨definition, member, same⟩
    exact ⟨_, member, by rw [same, Json.sortKeys_obj]⟩

variable {values : Members} {name : Text}

theorem Accepted.lookup_definition (accepted : Accepted candidate properties)
    (member : (name, .obj definition) ∈ properties) (key : Text) :
    (Json.sorted definition).lookup key = definition.lookup key := by
  obtain ⟨_, valueType, same, distinct, frame, fits⟩ := accepted.defines member
  obtain rfl := Json.obj.inj same
  exact fits.lookup_sorted frame distinct key

theorem Accepted.defined (accepted : Accepted candidate properties) :
    ∀ property ∈ Json.sorted properties, Defined property := by
  intro property member
  obtain ⟨definition, there, same⟩ := accepted.mem_sorted.mp member
  obtain ⟨_, valueType, same', -, -, fits⟩ := accepted.defines there
  obtain rfl := Json.obj.inj same'
  exact ⟨_, valueType, same, fits.of_lookup (accepted.lookup_definition there)⟩

theorem given_of_lookup (same : ∀ key, others.lookup key = definition.lookup key) (values : Members)
    (name : Text) : given values name others = given values name definition := by
  rw [given, same, given]

theorem Accepted.passes_iff (accepted : Accepted candidate properties) {required : List Text} :
    (∀ property ∈ Json.sorted properties, Passes required values property) ↔
      ∀ property ∈ properties, Passes required values property := by
  have same : ∀ {name : Text} {definition : Members}, (name, .obj definition) ∈ properties →
      (Passes required values (name, .obj (Json.sorted definition)) ↔
        Passes required values (name, .obj definition)) := by
    intro name definition member
    have lookups := accepted.lookup_definition member
    simp only [passes_obj, given_of_lookup lookups, satisfies_of_lookup lookups]
  constructor
  · rintro all ⟨name, raw⟩ member
    obtain ⟨definition, -, rfl, -⟩ := accepted.defines member
    exact (same member).mp (all _ (accepted.mem_sorted.mpr ⟨definition, member, rfl⟩))
  · rintro all ⟨name, raw⟩ member
    obtain ⟨definition, there, rfl⟩ := accepted.mem_sorted.mp member
    exact (same there).mpr (all _ there)

theorem keys_candidate (keyed : Json.Keyed (.obj candidate)) :
    (Json.keys candidate).Nodup := (Json.keyed_obj.mp keyed).1

theorem sortItems_strings (names : List Text) :
    Json.sortItems (names.map .str) = names.map .str := by
  rw [Json.sortItems_eq, List.map_map]
  refine List.map_congr_left fun name _ => ?_
  rw [Function.comp_apply, Json.sortKeys]

/-- What is required, read from the normalised schema. -/
theorem Accepted.required (accepted : Accepted candidate properties) :
    ((Json.sorted candidate).lookup (text "required")).getD (.arr []) =
      .arr ((requiredNames candidate).map .str) := by
  rw [Json.lookup_sorted (keys_candidate accepted.keyed), requiredNames]
  cases found : candidate.lookup (text "required") with
  | none => rfl
  | some value =>
      obtain ⟨names, rfl, -⟩ := accepted.fits.root.required value found
      rw [Option.map_some, Option.getD_some, Json.sortKeys, sortItems_strings]
      simp only [filterMap_string?]

/-- What is returned for values that pass. -/
def resultOf (properties values : Members) : ValidatedParameters where
  publicValues := properties.filterMap (publicOf values)
  secretValues := properties.filterMap (secretOf values)
  suppliedNames := sortedBy id (Json.keys values)

theorem sortedBy_eq_nil {names : List Text} : sortedBy id names = [] ↔ names = [] := by
  constructor
  · intro empty
    have perm : (sortedBy id names).Perm names := sortedBy_perm
    rw [empty] at perm
    exact perm.symm.eq_nil
  · rintro rfl
    rfl

/-- **`validate_parameters`**: what it accepts, and what it returns. -/
theorem Accepted.validateParameters_eq_ok {schema : Members}
    (accepted : Accepted (candidateOf (some schema)) properties)
    {result : ValidatedParameters} : validateParameters schema values = .ok result ↔
      (∀ name ∈ Json.keys values, name ∈ Json.keys properties) ∧
        (∀ property ∈ properties,
          Passes (requiredNames (candidateOf (some schema))) values property) ∧
          result = resultOf (Json.sorted properties) values := by
  have normalized : validateParameterSchema (some schema) =
      .ok (Json.sorted (candidateOf (some schema))) :=
    validateParameterSchema_eq_ok.mpr ⟨⟨properties, accepted.fits⟩, rfl⟩
  have found : (Json.sorted (candidateOf (some schema))).lookup (text "properties") =
      some (.obj (Json.sorted properties)) := by
    rw [Json.lookup_sorted (keys_candidate accepted.keyed), accepted.found, Option.map_some,
      Json.sortKeys_obj]
  have known : ∀ name, name ∈ Json.keys (Json.sorted properties) ↔ name ∈ Json.keys properties :=
    fun name => (Json.keys_sorted_perm properties).mem_iff
  rw [validateParameters, bind_eq_ok]
  simp only [normalized, Except.ok.injEq, exists_eq_left', found, accepted.required, bind_eq_ok,
    require_eq_ok, exists_const, sortedBy_eq_nil, filterMap_string?, known, pure_eq_ok,
    foldlM_validateParameter accepted.defined, ValidatedParameters.foldl_add, accepted.passes_iff]
  have declared :
      (Json.keys values).filter (fun name => decide (name ∉ Json.keys properties)) = [] ↔
      ∀ name ∈ Json.keys values, name ∈ Json.keys properties := by
    simp [List.filter_eq_nil_iff]
  rw [declared]
  constructor
  · rintro ⟨all, _, ⟨passes, rfl⟩, rfl⟩
    exact ⟨all, passes, by simp [resultOf]⟩
  · rintro ⟨all, passes, rfl⟩
    exact ⟨all, _, ⟨passes, rfl⟩, by simp [resultOf]⟩

/-! ## What is returned -/

theorem sensitive_of_lookup (same : ∀ key, others.lookup key = definition.lookup key) :
    sensitive others = sensitive definition := by
  rw [sensitive, same, sensitive]

theorem string?_eq_some {value : Json} {s : Text} : string? value = some s ↔ value = .str s := by
  cases value <;> simp [string?]

theorem Accepted.mem_public (accepted : Accepted candidate properties) {entry : Text × Json} :
    entry ∈ (resultOf (Json.sorted properties) values).publicValues ↔
      ∃ definition, (entry.1, .obj definition) ∈ properties ∧ sensitive definition = false ∧
        given values entry.1 definition = some entry.2 := by
  obtain ⟨name, value⟩ := entry
  rw [resultOf, List.mem_filterMap]
  constructor
  · rintro ⟨⟨other, raw⟩, member, is⟩
    obtain ⟨definition, there, rfl⟩ := accepted.mem_sorted.mp member
    have lookups := accepted.lookup_definition there
    simp only [publicOf, sensitive_of_lookup lookups, given_of_lookup lookups] at is
    split at is
    · cases is
    · rename_i plain
      obtain ⟨found, has, same⟩ := Option.map_eq_some_iff.mp is
      obtain ⟨rfl, rfl⟩ := Prod.mk.inj same
      exact ⟨definition, there, by simpa using plain, has⟩
  · rintro ⟨definition, there, plain, has⟩
    have lookups := accepted.lookup_definition there
    refine ⟨(name, .obj (Json.sorted definition)),
      accepted.mem_sorted.mpr ⟨definition, there, rfl⟩, ?_⟩
    simp [publicOf, sensitive_of_lookup lookups, given_of_lookup lookups, plain, has]

theorem Accepted.mem_secret (accepted : Accepted candidate properties) {entry : Text × Text} :
    entry ∈ (resultOf (Json.sorted properties) values).secretValues ↔
      ∃ definition, (entry.1, .obj definition) ∈ properties ∧ sensitive definition = true ∧
        given values entry.1 definition = some (.str entry.2) := by
  obtain ⟨name, value⟩ := entry
  rw [resultOf, List.mem_filterMap]
  constructor
  · rintro ⟨⟨other, raw⟩, member, is⟩
    obtain ⟨definition, there, rfl⟩ := accepted.mem_sorted.mp member
    have lookups := accepted.lookup_definition there
    simp only [secretOf, sensitive_of_lookup lookups, given_of_lookup lookups] at is
    split at is
    · rename_i marked
      obtain ⟨found, has, same⟩ := Option.map_eq_some_iff.mp is
      obtain ⟨rfl, rfl⟩ := Prod.mk.inj same
      obtain ⟨v, has, string⟩ := Option.bind_eq_some_iff.mp has
      rw [string?_eq_some.mp string] at has
      exact ⟨definition, there, marked, has⟩
    · cases is
  · rintro ⟨definition, there, marked, has⟩
    have lookups := accepted.lookup_definition there
    refine ⟨(name, .obj (Json.sorted definition)),
      accepted.mem_sorted.mpr ⟨definition, there, rfl⟩, ?_⟩
    simp [secretOf, sensitive_of_lookup lookups, given_of_lookup lookups, marked, has, string?]

/-- A name has one definition. -/
theorem Accepted.definition_unique (accepted : Accepted candidate properties)
    {other : Members} (member : (name, .obj definition) ∈ properties)
    (member' : (name, .obj other) ∈ properties) : other = definition := by
  have found := (Json.lookup_eq_some accepted.distinct).mpr member
  have found' := (Json.lookup_eq_some accepted.distinct).mpr member'
  exact Json.obj.inj (Option.some.inj (found'.symm.trans found))

theorem keys_filterMap_sublist {α : Type} {f : Text × Json → Option (Text × α)}
    (named : ∀ property entry, f property = some entry → entry.1 = property.1) :
    (Json.keys (properties.filterMap f)).Sublist (Json.keys properties) := by
  induction properties with
  | nil => exact List.Sublist.slnil
  | cons property properties ih =>
      rw [List.filterMap_cons]
      cases found : f property with
      | none => exact ih.cons _
      | some entry =>
          rw [Json.keys, List.map_cons, named property entry found]
          exact ih.cons_cons _

/-- Both parts, as values that could be supplied. -/
def ValidatedParameters.union (result : ValidatedParameters) : Members :=
  result.publicValues ++ result.secretValues.map fun secret => (secret.1, .str secret.2)

theorem keys_union (result : ValidatedParameters) :
    Json.keys result.union = Json.keys result.publicValues ++ Json.keys result.secretValues := by
  rw [ValidatedParameters.union, Json.keys, List.map_append, List.map_map]
  rfl

theorem Accepted.disjoint (accepted : Accepted candidate properties)
    (isPublic : name ∈ Json.keys (resultOf (Json.sorted properties) values).publicValues) :
    name ∉ Json.keys (resultOf (Json.sorted properties) values).secretValues := by
  intro isSecret
  obtain ⟨entry, member, rfl⟩ := List.mem_map.mp isPublic
  obtain ⟨entry', member', same⟩ := List.mem_map.mp isSecret
  obtain ⟨definition, there, plain, -⟩ := accepted.mem_public.mp member
  obtain ⟨other, there', marked, -⟩ := accepted.mem_secret.mp member'
  rw [same] at there'
  rw [accepted.definition_unique there there', plain] at marked
  cases marked

theorem Accepted.nodup_union (accepted : Accepted candidate properties) :
    (Json.keys (resultOf (Json.sorted properties) values).union).Nodup := by
  have distinct : (Json.keys (Json.sorted properties)).Nodup :=
    (Json.keys_sorted_perm properties).nodup_iff.mpr accepted.distinct
  rw [keys_union]
  refine List.nodup_append.mpr ⟨distinct.sublist (keys_filterMap_sublist ?_),
    distinct.sublist (keys_filterMap_sublist ?_), ?_⟩
  · rintro ⟨name, raw⟩ entry is
    unfold publicOf at is
    split at is
    · split at is
      · cases is
      · obtain ⟨v, -, rfl⟩ := Option.map_eq_some_iff.mp is
        rfl
    · cases is
  · rintro ⟨name, raw⟩ entry is
    unfold secretOf at is
    split at is
    · split at is
      · obtain ⟨v, -, rfl⟩ := Option.map_eq_some_iff.mp is
        rfl
      · cases is
    · cases is
  · rintro name isPublic _ isSecret rfl
    exact accepted.disjoint isPublic isSecret

/-- **Both parts together** are the values that the parameters have. -/
theorem Accepted.mem_union (accepted : Accepted candidate properties) {required : List Text}
    (passes : ∀ property ∈ properties, Passes required values property) {value : Json} :
    (name, value) ∈ (resultOf (Json.sorted properties) values).union ↔
      ∃ definition, (name, .obj definition) ∈ properties ∧
        given values name definition = some value := by
  rw [ValidatedParameters.union, List.mem_append, accepted.mem_public, List.mem_map]
  constructor
  · rintro (⟨definition, there, -, has⟩ | ⟨entry, member, same⟩)
    · exact ⟨definition, there, has⟩
    · obtain ⟨rfl, rfl⟩ := Prod.mk.inj same
      obtain ⟨definition, there, -, has⟩ := accepted.mem_secret.mp member
      exact ⟨definition, there, has⟩
  · rintro ⟨definition, there, has⟩
    cases marked : sensitive definition with
    | false => exact .inl ⟨definition, there, marked, has⟩
    | true =>
        obtain ⟨_, valueType, same, -, -, fits⟩ := accepted.defines there
        obtain rfl := Json.obj.inj same
        have satisfies := (passes_obj.mp (passes _ there)).2 value has
        obtain ⟨other, type, typed⟩ := satisfies.typed
        rw [fits.type, (fits.sensitive (sensitive_iff.mp marked)).1] at type
        rw [← json_injective (Option.some.inj type)] at typed
        obtain ⟨s, rfl⟩ := typed
        exact .inr ⟨(name, s), accepted.mem_secret.mpr ⟨definition, there, marked, has⟩, rfl⟩

end Normalised

end OpsComposer.Services.PlaybookProject
