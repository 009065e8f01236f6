import OpsComposer.Projects.Parameters

/-!
# The contract of the two validators

`validate_parameters` trusts what `validate_parameter_schema` has accepted.  For
an accepted schema with a section of properties it accepts the values that the
schema describes, takes them apart into public and secret ones, and does the same
with its own result (`validateParameters_spec`).

It cannot work with every schema that has been accepted.  The section may be
missing, and is read with `normalized_schema["properties"]`; and a default is
checked for its type and its enum only, but has to meet the limits as well when
it is used (`usable_iff`).
-/

set_option autoImplicit false

namespace OpsComposer.Services.PlaybookProject

open Foundations

/-- A dict that has been read from JSON. -/
structure JsonDict where
  members : Members
  keyed : Json.Keyed (.obj members)

/-- The properties of a schema, if it has a section of them. -/
def PropertiesOf (schema : JsonDict) (properties : Members) : Prop :=
  (candidateOf (some schema.members)).lookup (text "properties") = some (.obj properties)

/-- The values that a schema describes. -/
structure Acceptable (candidate properties values : Members) : Prop where
  declared : ∀ name ∈ Json.keys values, name ∈ Json.keys properties
  required : ∀ name ∈ requiredNames candidate, name ∈ Json.keys values ∨
    ∃ definition, (name, .obj definition) ∈ properties ∧
      (definition.lookup (text "default")).isSome
  valid : ∀ name definition value, (name, .obj definition) ∈ properties →
    given values name definition = some value → Satisfies definition value

/-- The two parts of the values. -/
structure Split (properties values : Members) (result : ValidatedParameters) : Prop where
  once : (Json.keys result.union).Nodup
  disjoint : ∀ name ∈ Json.keys result.publicValues, name ∉ Json.keys result.secretValues
  covers : ∀ name, name ∈ Json.keys result.union ↔ name ∈ Json.keys values ∨
    ∃ definition, (name, .obj definition) ∈ properties ∧
      (definition.lookup (text "default")).isSome
  unchanged : ∀ name value, (name, value) ∈ result.union →
    ∃ definition, (name, .obj definition) ∈ properties ∧
      given values name definition = some value
  guarded : ∀ name definition, (name, .obj definition) ∈ properties →
    definition.lookup (text "x-ops-composer-sensitive") = some (.bool true) →
      name ∉ Json.keys result.publicValues

section

variable {schema : JsonDict} {normalized properties values : Members}
  {result : ValidatedParameters}

theorem keyed_candidateOf (schema : JsonDict) :
    Json.Keyed (.obj (candidateOf (some schema.members))) := by
  cases schema with
  | mk members keyed =>
      cases members with
      | nil =>
          have default : Json.Keyed (.obj (candidateOf none)) := by decide
          exact default
      | cons member members => exact keyed

theorem accepted_of_eq_ok (accepts : validateParameterSchema (some schema.members) = .ok normalized)
    (declares : PropertiesOf schema properties) :
    Accepted (candidateOf (some schema.members)) properties := by
  obtain ⟨⟨others, fits⟩, -⟩ := validateParameterSchema_eq_ok.mp accepts
  rcases fits.root.found with ⟨none, -⟩ | ⟨found, -⟩
  · cases none.symm.trans declares
  · obtain rfl := Json.obj.inj (Option.some.inj (found.symm.trans declares))
    exact ⟨keyed_candidateOf schema, declares, fits⟩

variable {candidate : Members} {name : Text}

/-- What is demanded of a schema is met by the normalised one. -/
theorem SchemaFits.sorted (keyed : Json.Keyed (.obj candidate))
    (fits : SchemaFits candidate properties) :
    SchemaFits (Json.sorted candidate) (Json.sorted properties) := by
  have lookups := Json.lookup_sorted (keys_candidate keyed)
  have names : ∀ name, name ∈ Json.keys (Json.sorted properties) ↔ name ∈ Json.keys properties :=
    fun name => (Json.keys_sorted_perm properties).mem_iff
  refine ⟨⟨fun key member => ?_, ?_, ?_, fun value member => ?_, ?_, fun value member => ?_⟩,
    fun property member => ?_, ?_⟩
  · exact fits.root.keywords key ((Json.keys_sorted_perm candidate).mem_iff.mp member)
  · rw [lookups, fits.root.type, Option.map_some, Json.sortKeys]
  · rw [lookups, fits.root.closed, Option.map_some, Json.sortKeys]
  · rw [Option.mem_def, lookups] at member
    obtain ⟨original, found, rfl⟩ := Option.map_eq_some_iff.mp member
    obtain ⟨s, rfl⟩ := isStr_eq_true.mp (fits.root.description original found)
    rw [Json.sortKeys]
    rfl
  · rcases fits.root.found with ⟨none, rfl⟩ | ⟨found, few⟩
    · exact .inl ⟨by rw [lookups, none, Option.map_none], rfl⟩
    · refine .inr ⟨by rw [lookups, found, Option.map_some, Json.sortKeys_obj], ?_⟩
      have length := (Json.keys_sorted_perm properties).length_eq
      rw [List.length_map, List.length_map] at length
      rwa [length]
  · rw [Option.mem_def, lookups] at member
    obtain ⟨original, found, rfl⟩ := Option.map_eq_some_iff.mp member
    obtain ⟨required, rfl, distinct, known⟩ := fits.root.required original found
    refine ⟨required, by rw [Json.sortKeys, sortItems_strings], distinct, fun name inside => ?_⟩
    exact (names name).mpr (known name inside)
  · rcases fits.root.found with ⟨-, rfl⟩ | ⟨found, -⟩
    · cases member
    · have accepted : Accepted candidate properties := ⟨keyed, found, fits⟩
      obtain ⟨definition, there, same⟩ := accepted.mem_sorted.mp member
      obtain ⟨_, valueType, same', distinct, frame, fine⟩ := accepted.defines there
      obtain rfl := Json.obj.inj same'
      refine ⟨_, valueType, same, ⟨frame.named, frame.short, fun key inside => ?_⟩,
        fine.of_lookup (accepted.lookup_definition there)⟩
      exact frame.keywords key ((Json.keys_sorted_perm definition).mem_iff.mp inside)
  · have text := Json.dumpsUnicode_sortKeys (.obj candidate)
    rw [Json.sortKeys_obj] at text
    rw [TextFits, text]
    exact fits.text

/-- **The normalised schema is accepted, and is its own normal form.** -/
theorem validateParameterSchema_normalized
    (accepts : validateParameterSchema (some schema.members) = .ok normalized) :
    validateParameterSchema (some normalized) = .ok normalized := by
  obtain ⟨⟨properties, fits⟩, rfl⟩ := validateParameterSchema_eq_ok.mp accepts
  have again := fits.sorted (keyed_candidateOf schema)
  have same : candidateOf (some (Json.sorted (candidateOf (some schema.members)))) =
      Json.sorted (candidateOf (some schema.members)) := by
    cases shape : Json.sorted (candidateOf (some schema.members)) with
    | nil =>
        have type := again.root.type
        rw [shape] at type
        cases type
    | cons member members => rfl
  have twice := Json.sortKeys_sortKeys (.obj (candidateOf (some schema.members)))
  rw [Json.sortKeys_obj, Json.sortKeys_obj] at twice
  exact validateParameterSchema_eq_ok.mpr
    ⟨⟨_, same.symm ▸ again⟩, by rw [same, Json.obj.inj twice]⟩

theorem given_eq_none {definition : Members} :
    given values name definition = none ↔
      name ∉ Json.keys values ∧ definition.lookup (text "default") = none := by
  rw [given, Option.or_eq_none_iff, Json.lookup_eq_none]

/-- The names that are required have properties. -/
theorem Accepted.requiredNames_declared (accepted : Accepted candidate properties)
    (member : name ∈ requiredNames candidate) : name ∈ Json.keys properties := by
  unfold requiredNames at member
  split at member <;> rename_i found
  · obtain ⟨names, same, -, declared⟩ := accepted.fits.root.required _ found
    obtain rfl := Json.arr.inj same
    rw [filterMap_string?] at member
    exact declared name member
  · cases member

/-- What passes the loop is what the schema describes. -/
theorem Accepted.passes_iff_acceptable (accepted : Accepted candidate properties) :
    ((∀ name ∈ Json.keys values, name ∈ Json.keys properties) ∧
      ∀ property ∈ properties, Passes (requiredNames candidate) values property) ↔
        Acceptable candidate properties values := by
  constructor
  · rintro ⟨declared, passes⟩
    refine ⟨declared, fun name required => ?_, fun name definition value there has =>
      (passes_obj.mp (passes _ there)).2 value has⟩
    obtain ⟨⟨_, raw⟩, there, rfl⟩ := List.mem_map.mp (accepted.requiredNames_declared required)
    obtain ⟨definition, -, rfl, -⟩ := accepted.defines there
    by_contra missing
    obtain ⟨absent, noDefault⟩ := not_or.mp missing
    refine (passes_obj.mp (passes _ there)).1 (given_eq_none.mpr ⟨absent, ?_⟩) required
    by_contra default
    exact noDefault ⟨definition, there, Option.isSome_iff_ne_none.mpr default⟩
  · intro acceptable
    refine ⟨acceptable.declared, ?_⟩
    rintro ⟨name, raw⟩ there
    obtain ⟨definition, -, rfl, -⟩ := accepted.defines there
    refine passes_obj.mpr ⟨fun none required => ?_, fun value has =>
      acceptable.valid name definition value there has⟩
    obtain ⟨absent, noDefault⟩ := given_eq_none.mp none
    rcases acceptable.required name required with supplied | ⟨other, there', default⟩
    · exact absent supplied
    · rw [accepted.definition_unique there there', noDefault] at default
      cases default

/-- The parts of values that pass. -/
theorem Accepted.split (accepted : Accepted candidate properties)
    (declared : ∀ name ∈ Json.keys values, name ∈ Json.keys properties)
    (passes : ∀ property ∈ properties, Passes (requiredNames candidate) values property) :
    Split properties values (resultOf (Json.sorted properties) values) := by
  have members : ∀ name value, (name, value) ∈ (resultOf (Json.sorted properties) values).union ↔
      ∃ definition, (name, .obj definition) ∈ properties ∧
        given values name definition = some value := fun _ _ => accepted.mem_union passes
  refine ⟨accepted.nodup_union, fun name => accepted.disjoint, fun name => ?_,
    fun name value => (members name value).mp, fun name definition there marked isPublic => ?_⟩
  · constructor
    · intro inside
      obtain ⟨⟨_, value⟩, member, rfl⟩ := List.mem_map.mp inside
      obtain ⟨definition, there, has⟩ := (members _ value).mp member
      by_contra neither
      obtain ⟨absent, noDefault⟩ := not_or.mp neither
      have none : given values _ definition = none := given_eq_none.mpr ⟨absent, by
        by_contra default
        exact noDefault ⟨definition, there, Option.isSome_iff_ne_none.mpr default⟩⟩
      cases none.symm.trans has
    · intro either
      have exists_value : ∃ definition value, (name, .obj definition) ∈ properties ∧
          given values name definition = some value := by
        rcases either with supplied | ⟨definition, there, default⟩
        · obtain ⟨⟨_, raw⟩, there, rfl⟩ := List.mem_map.mp (declared name supplied)
          obtain ⟨definition, -, rfl, -⟩ := accepted.defines there
          obtain ⟨value, has⟩ := Option.ne_none_iff_exists'.mp fun none =>
            (given_eq_none.mp none).1 supplied
          exact ⟨definition, value, there, has⟩
        · obtain ⟨value, has⟩ := Option.ne_none_iff_exists'.mp fun none =>
            Option.isSome_iff_ne_none.mp default (given_eq_none.mp none).2
          exact ⟨definition, value, there, has⟩
      obtain ⟨definition, value, there, has⟩ := exists_value
      exact List.mem_map_of_mem ((members name value).mpr ⟨definition, there, has⟩)
  · obtain ⟨entry, member, rfl⟩ := List.mem_map.mp isPublic
    obtain ⟨other, there', plain, -⟩ := accepted.mem_public.mp member
    rw [accepted.definition_unique there there', sensitive_iff.mpr marked] at plain
    cases plain

/-- **Both parts together stand for the values**: a parameter has the same value
among them. -/
theorem Accepted.given_union (accepted : Accepted candidate properties) {required : List Text}
    (passes : ∀ property ∈ properties, Passes required values property) {definition : Members}
    (there : (name, .obj definition) ∈ properties) :
    given (resultOf (Json.sorted properties) values).union name definition =
      given values name definition := by
  cases has : given values name definition with
  | some value =>
      have member := (accepted.mem_union passes).mpr ⟨definition, there, has⟩
      rw [given, (Json.lookup_eq_some accepted.nodup_union).mpr member]
      rfl
  | none =>
      refine given_eq_none.mpr ⟨fun inside => ?_, (given_eq_none.mp has).2⟩
      obtain ⟨⟨_, value⟩, member, rfl⟩ := List.mem_map.mp inside
      obtain ⟨other, there', has'⟩ := (accepted.mem_union passes).mp member
      rw [accepted.definition_unique there there'] at has'
      cases has.symm.trans has'

/-- The parts of what has the same values are the same. -/
theorem Accepted.resultOf_congr (accepted : Accepted candidate properties)
    {others : Members} (same : ∀ name definition, (name, .obj definition) ∈ properties →
      given others name definition = given values name definition) :
    (resultOf (Json.sorted properties) others).publicValues =
        (resultOf (Json.sorted properties) values).publicValues ∧
      (resultOf (Json.sorted properties) others).secretValues =
        (resultOf (Json.sorted properties) values).secretValues := by
  have sorted : ∀ {property : Text × Json}, property ∈ Json.sorted properties →
      publicOf others property = publicOf values property ∧
        secretOf others property = secretOf values property := by
    rintro ⟨name, raw⟩ member
    obtain ⟨definition, there, rfl⟩ := accepted.mem_sorted.mp member
    have lookups := accepted.lookup_definition there
    simp only [publicOf, secretOf, given_of_lookup lookups, same name definition there, and_self]
  exact ⟨List.filterMap_congr fun _ member => (sorted member).1,
    List.filterMap_congr fun _ member => (sorted member).2⟩

/-- **Validation of parameters**: which values are accepted, how they are taken
apart, and that the parts are taken apart in the same way. -/
theorem validateParameters_spec
    (accepts : validateParameterSchema (some schema.members) = .ok normalized)
    (declares : PropertiesOf schema properties) (values : Members) :
    ((∃ result, validateParameters schema.members values = .ok result) ↔
      Acceptable (candidateOf (some schema.members)) properties values) ∧
    ∀ result, validateParameters schema.members values = .ok result →
      Split properties values result ∧
        ∃ again, validateParameters schema.members result.union = .ok again ∧
          again.publicValues = result.publicValues ∧
            again.secretValues = result.secretValues := by
  have accepted := accepted_of_eq_ok accepts declares
  constructor
  · rw [← accepted.passes_iff_acceptable]
    constructor
    · rintro ⟨result, returned⟩
      obtain ⟨declared, passes, -⟩ := accepted.validateParameters_eq_ok.mp returned
      exact ⟨declared, passes⟩
    · rintro ⟨declared, passes⟩
      exact ⟨_, accepted.validateParameters_eq_ok.mpr ⟨declared, passes, rfl⟩⟩
  · intro result returned
    obtain ⟨declared, passes, rfl⟩ := accepted.validateParameters_eq_ok.mp returned
    have same : ∀ name definition, (name, .obj definition) ∈ properties →
        given (resultOf (Json.sorted properties) values).union name definition =
          given values name definition := fun _ _ => accepted.given_union passes
    refine ⟨accepted.split declared passes, _, accepted.validateParameters_eq_ok.mpr
      ⟨fun name inside => ?_, ?_, rfl⟩, accepted.resultOf_congr same⟩
    · obtain ⟨⟨_, value⟩, member, rfl⟩ := List.mem_map.mp inside
      obtain ⟨definition, there, -⟩ := (accepted.mem_union passes).mp member
      exact List.mem_map.mpr ⟨_, there, rfl⟩
    · rintro ⟨name, raw⟩ there
      obtain ⟨definition, -, rfl, -⟩ := accepted.defines there
      have before := passes_obj.mp (passes _ there)
      rw [passes_obj, same name definition there]
      exact before

end

/-! ## A schema that both validators agree on -/

/-- A name with a default, and a secret that is required. -/
def deployProperties : Members :=
  [(text "name", .obj [(text "type", .str (text "string")), (text "default", .str (text "web")),
      (text "minLength", .int 2)]),
    (text "token", .obj [(text "type", .str (text "string")),
      (text "x-ops-composer-sensitive", .bool true)])]

/-- A schema with two properties. -/
def deploySchema : JsonDict where
  members := schemaWith
    [(text "properties", .obj deployProperties), (text "required", .arr [.str (text "token")])]
  keyed := by decide

set_option maxRecDepth 4000 in
theorem deploySchema_accepted :
    validateParameterSchema (some deploySchema.members) =
      .ok (Json.sorted deploySchema.members) := by rfl

set_option maxRecDepth 4000 in
theorem validateParameters_spec_deploy :
    validateParameters deploySchema.members [(text "token", .str (text "t"))] =
      .ok ⟨[(text "name", .str (text "web"))], [(text "token", text "t")], [text "token"]⟩ ∧
    Split deployProperties [(text "token", .str (text "t"))]
      ⟨[(text "name", .str (text "web"))], [(text "token", text "t")], [text "token"]⟩ := by
  have returned : validateParameters deploySchema.members [(text "token", .str (text "t"))] =
      .ok ⟨[(text "name", .str (text "web"))], [(text "token", text "t")], [text "token"]⟩ := by rfl
  exact ⟨returned, ((validateParameters_spec deploySchema_accepted rfl _).2 _ returned).1⟩

/-! ## The schemas that can be used -/

/-- A result is returned, or a `ValidationError` is raised. -/
def Answers {α : Type} (outcome : Except ParameterError α) : Prop :=
  (∃ result, outcome = .ok result) ∨
    ∃ message details, outcome = .error (.validation message details)

section Answers

variable {α β : Type}

theorem answers_ok {a : α} : Answers (.ok a : Except ParameterError α) := .inl ⟨a, rfl⟩

theorem answers_bind {x : Except ParameterError α} {f : α → Except ParameterError β}
    (first : Answers x) (next : ∀ a, x = .ok a → Answers (f a)) : Answers (x >>= f) := by
  rcases first with ⟨a, rfl⟩ | ⟨message, details, rfl⟩
  · exact next a rfl
  · exact .inr ⟨message, details, rfl⟩

theorem answers_require {condition : Prop} [Decidable condition] {message : String}
    {details : ErrorDetails} : Answers (require condition (.validation message details)) := by
  unfold require
  split
  · exact answers_ok
  · exact .inr ⟨message, details, rfl⟩

theorem answers_foldlM {items : List α} {f : β → α → Except ParameterError β}
    (each : ∀ item ∈ items, ∀ b, Answers (f b item)) (b : β) : Answers (items.foldlM f b) := by
  induction items generalizing b with
  | nil => exact answers_ok
  | cons item items ih =>
      rw [List.forall_mem_cons] at each
      rw [List.foldlM_cons]
      exact answers_bind (each.1 b) fun b _ => ih each.2 b

end Answers

theorem answers_checkValue {definition : Members} {valueType : ValueType}
    (fits : DefinitionFits definition valueType) {name : Text} {value : Json} :
    Answers (checkValue name definition value) := by
  have enum : Answers (checkEnum name definition value) := by
    unfold checkEnum
    split <;> rename_i found
    · exact answers_ok
    · exact answers_require
    · rename_i other
      obtain ⟨items, rfl, -⟩ := fits.enum _ found
      exact (other items rfl).elim
  have limits : Answers (checkLimits name definition value) := by
    unfold checkLimits
    split
    · exact answers_bind answers_require fun _ _ => answers_require
    · exact answers_bind answers_require fun _ _ => answers_require
    · exact answers_bind answers_require fun _ _ => answers_require
    · exact answers_ok
  unfold checkValue
  simp only [fits.type]
  exact answers_bind answers_require fun _ _ => answers_bind enum fun _ _ => limits

theorem answers_validateParameter {required : List Text} {values : Members}
    {result : ValidatedParameters} {property : Text × Json} (defined : Defined property) :
    Answers (validateParameter required values result property) := by
  obtain ⟨name, raw⟩ := property
  obtain ⟨definition, valueType, rfl, fits⟩ := defined
  have valued : Answers (valueOf required values name definition) := by
    unfold valueOf
    split
    · exact answers_ok
    · split
      · exact answers_ok
      · exact answers_bind answers_require fun _ _ => answers_ok
  refine answers_bind valued fun value found => ?_
  cases value with
  | none => exact answers_ok
  | some value =>
      refine answers_bind (answers_checkValue fits) fun _ checked => ?_
      have satisfies := (checkValue_eq_ok fits).mp checked
      rw [store_eq fits (valueOf_eq_ok.mp found).1.symm satisfies]
      exact answers_ok

/-- The schema has a section of properties. -/
def HasProperties (schema : JsonDict) : Prop := ∃ properties, PropertiesOf schema properties

/-- Every default is within the limits of its definition. -/
def DefaultsWithinLimits (schema : JsonDict) : Prop :=
  ∀ properties, PropertiesOf schema properties →
    ∀ name definition value, (name, .obj definition) ∈ properties →
      definition.lookup (text "default") = some value → WithinLimits definition value

/-- `validate_parameters` can work with the schema: it answers, and every default
meets the rules that it enforces. -/
structure Usable (schema : JsonDict) : Prop where
  answers : ∀ values, Answers (validateParameters schema.members values)
  defaults : ∀ properties, PropertiesOf schema properties →
    ∀ name definition value, (name, .obj definition) ∈ properties →
      definition.lookup (text "default") = some value →
        checkValue name definition value = .ok ()

section Usable

variable {schema : JsonDict} {normalized : Members}

/-- With a section of properties, there is always an answer. -/
theorem answers_validateParameters {properties : Members}
    (accepts : validateParameterSchema (some schema.members) = .ok normalized)
    (declares : PropertiesOf schema properties) (values : Members) :
    Answers (validateParameters schema.members values) := by
  have accepted := accepted_of_eq_ok accepts declares
  obtain ⟨-, rfl⟩ := validateParameterSchema_eq_ok.mp accepts
  have found : (Json.sorted (candidateOf (some schema.members))).lookup (text "properties") =
      some (.obj (Json.sorted properties)) := by
    rw [Json.lookup_sorted (keys_candidate accepted.keyed), accepted.found, Option.map_some,
      Json.sortKeys_obj]
  unfold validateParameters
  refine answers_bind (accepts ▸ answers_ok) fun other same => ?_
  obtain rfl := Except.ok.inj (accepts.symm.trans same)
  simp only [found, accepted.required]
  refine answers_bind answers_require fun _ _ => answers_bind ?_ fun _ _ => answers_ok
  exact answers_foldlM (fun property member _ =>
    answers_validateParameter (accepted.defined property member)) _

/-- Without one, there is none for any values. -/
theorem validateParameters_eq_keyError
    (accepts : validateParameterSchema (some schema.members) = .ok normalized)
    (absent : ¬ HasProperties schema) (values : Members) :
    validateParameters schema.members values = .error .keyError := by
  obtain ⟨⟨properties, fits⟩, rfl⟩ := validateParameterSchema_eq_ok.mp accepts
  have missing : (Json.sorted (candidateOf (some schema.members))).lookup (text "properties") =
      none := by
    rw [Json.lookup_sorted (keys_candidate (keyed_candidateOf schema))]
    rcases fits.root.found with ⟨none, -⟩ | ⟨found, -⟩
    · rw [none, Option.map_none]
    · exact absurd ⟨properties, found⟩ absent
  simp only [validateParameters, accepts, bind, Except.bind, missing]

/-- **When an accepted schema can be used.** -/
theorem usable_iff (accepts : validateParameterSchema (some schema.members) = .ok normalized) :
    Usable schema ↔ HasProperties schema ∧ DefaultsWithinLimits schema := by
  constructor
  · intro usable
    constructor
    · by_contra absent
      rcases usable.answers [] with ⟨result, same⟩ | ⟨message, details, same⟩
      · rw [validateParameters_eq_keyError accepts absent] at same
        cases same
      · rw [validateParameters_eq_keyError accepts absent] at same
        cases same
    · intro properties declares name definition value there default
      obtain ⟨_, _, same, -, -, fits⟩ := (accepted_of_eq_ok accepts declares).defines there
      obtain rfl := Json.obj.inj same
      have checked := usable.defaults properties declares name _ value there default
      exact ((checkValue_eq_ok fits).mp checked).toWithinLimits
  · rintro ⟨⟨properties, declares⟩, within⟩
    refine ⟨answers_validateParameters accepts declares, ?_⟩
    intro others declares' name definition value there default
    obtain ⟨_, valueType, same, -, -, fits⟩ := (accepted_of_eq_ok accepts declares').defines there
    obtain rfl := Json.obj.inj same
    obtain ⟨typed, inEnum⟩ := fits.default value default
    refine (checkValue_eq_ok fits).mpr
      ⟨within others declares' name _ value there default, ⟨valueType, fits.type, typed⟩, ?_⟩
    intro items enum
    simpa [isIn] using inEnum items enum

end Usable

theorem usable_deploy : Usable deploySchema := by
  refine (usable_iff deploySchema_accepted).mpr ⟨⟨deployProperties, rfl⟩, ?_⟩
  intro properties declares name definition value there default
  obtain rfl := Json.obj.inj (Option.some.inj declares)
  rcases List.mem_cons.mp there with same | there
  · obtain ⟨rfl, dict⟩ := Prod.mk.inj same
    obtain rfl := Json.obj.inj dict
    obtain rfl := Option.some.inj default
    refine ⟨fun n s found value => ?_, fun n s found => ?_, fun _ _ _ found => ?_,
      fun _ _ _ found => ?_⟩
    · obtain rfl := Json.int.inj (Option.some.inj found)
      obtain rfl := Json.str.inj value
      decide
    · cases found
    · cases found
    · cases found
  · obtain ⟨rfl, dict⟩ := Prod.mk.inj (List.mem_singleton.mp there)
    obtain rfl := Json.obj.inj dict
    cases default

/-- A schema without a section of properties. -/
def bareSchema : JsonDict := ⟨schemaWith [], by decide⟩

/-- A default that is shorter than the least length. -/
def shortDefault : JsonDict where
  members := schemaWith [(text "properties", .obj [(text "a",
    .obj [(text "type", .str (text "string")), (text "default", .str []),
      (text "minLength", .int 1)])])]
  keyed := by decide

/-- **Two accepted schemas that cannot be used**: the first one ends every call in a
`KeyError`, and the second one refuses the default that it declares. -/
theorem usable_fails :
    (validateParameterSchema (some bareSchema.members) =
        .ok (Json.sorted bareSchema.members) ∧
      validateParameters bareSchema.members [] = .error .keyError ∧ ¬ Usable bareSchema) ∧
    (validateParameterSchema (some shortDefault.members) =
        .ok (Json.sorted shortDefault.members) ∧
      validateParameters shortDefault.members [] =
        .error (.validation "Playbook parameter is too short" (.field (text "a"))) ∧
          ¬ Usable shortDefault) := by
  have bare : validateParameterSchema (some bareSchema.members) =
      .ok (Json.sorted bareSchema.members) := by rfl
  have short : validateParameterSchema (some shortDefault.members) =
      .ok (Json.sorted shortDefault.members) := by rfl
  refine ⟨⟨bare, by rfl, fun usable => ?_⟩, ⟨short, by rfl, fun usable => ?_⟩⟩
  · rcases usable.answers [] with ⟨_, same⟩ | ⟨_, _, same⟩
    · cases same
    · cases same
  · have checked := usable.defaults _ rfl (text "a") _ (.str []) (List.mem_singleton_self _) rfl
    cases checked

end OpsComposer.Services.PlaybookProject
