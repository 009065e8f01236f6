import OpsComposer.Foundations.JsonValues

/-!
# Playbook parameters

`services/playbook_project.py`: the schema of the parameters of a playbook, as
`validate_parameter_schema` accepts and normalises it, and the values that
`validate_parameters` accepts for it.

A schema and the values are what `json.loads` has returned.  A dict is the list
of its members; `members.lookup key` is what is stored under a key, and
`get members key` is `members.get(key)`, which does not tell a `null` from a key
that is missing.
-/

set_option autoImplicit false

namespace OpsComposer.Services

open Foundations

namespace PlaybookProject

/-- A `dict[str, object]`. -/
abbrev Members := List (Text × Json)

/-- The details of an error: the field or the fields that it names. -/
inductive ErrorDetails where
  | none
  | field (name : Text)
  | fields (names : List Text)
  deriving DecidableEq, Repr

/-- `PlaybookProjectInvalidError`, `ValidationError`, and the exceptions of
Python itself. -/
inductive ParameterError where
  | projectInvalid (message : String) (details : ErrorDetails := .none)
  | validation (message : String) (details : ErrorDetails)
  | typeError
  | valueError
  | unicodeEncode
  | keyError
  | assertionError
  deriving DecidableEq, Repr

/-- `if not condition: raise error`. -/
def require (condition : Prop) [Decidable condition] (error : ParameterError) :
    Except ParameterError Unit :=
  if condition then .ok () else .error error

/-- `definition.get`, where a `null` is not told from a missing keyword. -/
def get (members : Members) (key : String) : Option Json :=
  match members.lookup (text key) with
  | some .null => none
  | found => found

/-- `value == literal`, for a literal text. -/
def isText (value : Json) (literal : String) : Bool :=
  match value with
  | .str s => s == text literal
  | _ => false

/-- `value is False` and `value is True`. -/
def isFalse : Json → Bool
  | .bool value => !value
  | _ => false

/-- `value is True`. -/
def isTrue : Json → Bool
  | .bool value => value
  | _ => false

/-- `_finite_number`. -/
def finiteNumber (value : Json) : Bool := (Json.number? value).isSome

/-- `_validate_parameter_type`. -/
def validateParameterType (name : Text) (valueType value : Json) : Except ParameterError Unit :=
  require
    (if isText valueType "string" then value.isStr
      else if isText valueType "boolean" then value.isBool
      else if isText valueType "integer" then value.isInt
      else finiteNumber value)
    (.validation "parameter type is invalid" (.field name))

/-! ## The schema -/

/-- The longest text of a schema. -/
def maxSchemaBytes : Nat := 64 * 1024

/-- The most properties of a schema. -/
def maxProperties : Nat := 256

/-- The longest name of a property. -/
def maxNameLength : Nat := 128

/-- The keywords of a schema. -/
def rootKeywords : List Text :=
  ["type", "properties", "required", "additionalProperties", "description"].map text

/-- The keywords of a property. -/
def propertyKeywords : List Text :=
  ["type", "description", "default", "enum", "minimum", "maximum", "minLength", "maxLength",
    "x-ops-composer-sensitive"].map text

/-- The types of a value. -/
def valueTypes : List Text := ["string", "integer", "number", "boolean"].map text

/-- `schema or {...}`. -/
def candidateOf : Option Members → Members
  | some (member :: members) => member :: members
  | _ => [(text "type", .str (text "object")), (text "properties", .obj []),
      (text "additionalProperties", .bool false)]

/-- The text that a string is. -/
def string? : Json → Option Text
  | .str s => some s
  | _ => none

/-- The section of properties, which is an object of at most 256. -/
def propertiesOf (candidate : Members) : Except ParameterError Members :=
  match candidate.lookup (text "properties") with
  | none => .ok []
  | some (.obj properties) => do
      require (properties.length ≤ maxProperties)
        (.projectInvalid "parameter Schema properties are invalid")
      return properties
  | some _ => .error (.projectInvalid "parameter Schema properties are invalid")

/-- The names that are required are distinct and have properties. -/
def checkRequired (candidate properties : Members) : Except ParameterError Unit :=
  match candidate.lookup (text "required") with
  | none => .ok ()
  | some (.arr items) =>
      require (items.length = (items.filterMap string?).dedup.length ∧
          ∀ item ∈ items, ∃ s ∈ string? item, s ∈ Json.keys properties)
        (.projectInvalid "parameter Schema required fields are invalid")
  | some _ => .error (.projectInvalid "parameter Schema required fields are invalid")

/-- The checks of the root, and the properties. -/
def checkRoot (candidate : Members) : Except ParameterError Members := do
  require (∀ key ∈ Json.keys candidate, key ∈ rootKeywords)
    (.projectInvalid "parameter Schema contains unsupported root keywords")
  require
    ((∃ value ∈ candidate.lookup (text "type"), isText value "object") ∧
      ∃ value ∈ candidate.lookup (text "additionalProperties"), isFalse value)
    (.projectInvalid "parameter Schema must be an object with additionalProperties=false")
  require (∀ value ∈ candidate.lookup (text "description"), value.isStr)
    (.projectInvalid "parameter Schema description must be a string")
  let properties ← propertiesOf candidate
  checkRequired candidate properties
  return properties

/-- `value_type`, which is looked for in a set: a list and a dict have no hash. -/
def valueTypeOf (name : Text) (definition : Members) : Except ParameterError Json :=
  match definition.lookup (text "type") with
  | some (.arr _) => .error .typeError
  | some (.obj _) => .error .typeError
  | some (.str s) => do
      require (s ∈ valueTypes)
        (.projectInvalid "parameter Schema property type is unsupported" (.field name))
      return .str s
  | _ => .error (.projectInvalid "parameter Schema property type is unsupported" (.field name))

/-- `json.dumps(item, sort_keys=True)` of a scalar. -/
def dumpsItem (item : Json) : Except ParameterError Text :=
  match item with
  | .int n => do
      require (¬ Json.TooLong n) .valueError
      return Json.dumps item
  | _ => .ok (Json.dumps item)

/-- The values of the enum, if there is one. -/
def enumOf (name : Text) (valueType : Json) (definition : Members) :
    Except ParameterError (Option (List Json)) :=
  match definition.lookup (text "enum") with
  | none => .ok none
  | some (.arr items) => do
      require (items ≠ []) (.projectInvalid "parameter enum is invalid" (.field name))
      items.forM fun item => validateParameterType name valueType item
      let texts ← items.mapM dumpsItem
      require (texts.dedup.length = items.length)
        (.projectInvalid "parameter enum contains duplicate values" (.field name))
      return some items
  | some _ => .error (.projectInvalid "parameter enum is invalid" (.field name))

/-- `value in enum`. -/
def isIn (value : Json) (enum : List Json) : Bool := enum.any fun item => Json.equal item value

/-- A default has the type of the property, and is one of its enum. -/
def checkDefault (name : Text) (valueType : Json) (definition : Members)
    (enum : Option (List Json)) : Except ParameterError Unit :=
  match definition.lookup (text "default") with
  | none => .ok ()
  | some value => do
      validateParameterType name valueType value
      require (∀ items ∈ enum, isIn value items)
        (.projectInvalid "parameter default is outside its enum" (.field name))

/-- An integer that is not negative. -/
def isLength : Json → Bool
  | .int n => decide (0 ≤ n)
  | _ => false

/-- Both are integers, and the first is the greater one. -/
def lengthsReversed : Option Json → Option Json → Bool
  | some (.int minimum), some (.int maximum) => decide (maximum < minimum)
  | _, _ => false

/-- The limits of the length, which only a string may have. -/
def checkLengths (name : Text) (valueType : Json) (definition : Members) :
    Except ParameterError Unit :=
  let minimum := get definition "minLength"
  let maximum := get definition "maxLength"
  if isText valueType "string" then do
    require ((∀ value ∈ minimum, isLength value) ∧ ∀ value ∈ maximum, isLength value)
      (.projectInvalid "string length limits are invalid" (.field name))
    require (¬ lengthsReversed minimum maximum)
      (.projectInvalid "string length limits are reversed" (.field name))
  else
    require (minimum.isNone ∧ maximum.isNone)
      (.projectInvalid "length limits require a string parameter" (.field name))

/-- The least value is greater than the greatest. -/
def rangeReversed : Option Json → Option Json → Bool
  | some minimum, some maximum => Json.less maximum minimum
  | _, _ => false

/-- The limits of the value, which only a number may have. -/
def checkRange (name : Text) (valueType : Json) (definition : Members) :
    Except ParameterError Unit :=
  let minimum := get definition "minimum"
  let maximum := get definition "maximum"
  if isText valueType "integer" ∨ isText valueType "number" then do
    require ((∀ value ∈ minimum, finiteNumber value) ∧ ∀ value ∈ maximum, finiteNumber value)
      (.projectInvalid "numeric limits are invalid" (.field name))
    require (¬ rangeReversed minimum maximum)
      (.projectInvalid "numeric limits are reversed" (.field name))
  else
    require (minimum.isNone ∧ maximum.isNone)
      (.projectInvalid "numeric limits require a numeric parameter" (.field name))

/-- The checks of one property, in the order of the source. -/
def checkDefinition (name : Text) (definition : Members) : Except ParameterError Unit := do
  let valueType ← valueTypeOf name definition
  require (∀ value ∈ get definition "description", value.isStr)
    (.projectInvalid "parameter description must be a string" (.field name))
  let sensitive := definition.lookup (text "x-ops-composer-sensitive")
  require (∀ value ∈ sensitive, value.isBool)
    (.projectInvalid "sensitive marker must be boolean" (.field name))
  require
    ((∃ value ∈ sensitive, isTrue value) →
      isText valueType "string" ∧ (definition.lookup (text "default")).isNone)
    (.projectInvalid "sensitive parameters must be strings without defaults" (.field name))
  let enum ← enumOf name valueType definition
  checkDefault name valueType definition enum
  checkLengths name valueType definition
  checkRange name valueType definition

/-- The definition of a property: a dict of the keywords that there are. -/
def definitionOf (name : Text) (rawDefinition : Json) : Except ParameterError Members :=
  match rawDefinition with
  | .obj definition => do
      require (∀ key ∈ Json.keys definition, key ∈ propertyKeywords)
        (.projectInvalid "parameter Schema property contains unsupported keywords" (.field name))
      return definition
  | _ => .error <|
      .projectInvalid "parameter Schema property contains unsupported keywords" (.field name)

/-- One iteration of the loop over the properties. -/
def checkProperty (name : Text) (rawDefinition : Json) : Except ParameterError Unit := do
  require (name ≠ [] ∧ name.length ≤ maxNameLength)
    (.projectInvalid "parameter Schema property name is invalid")
  let definition ← definitionOf name rawDefinition
  checkDefinition name definition

/-- The text of the schema, which is limited. -/
def checkText (candidate : Members) : Except ParameterError Unit :=
  match Json.dumpsUnicode (.obj candidate) with
  | none => .error (.projectInvalid "parameter Schema must be valid JSON")
  | some encoded =>
      match encoded.encode with
      | none => .error .unicodeEncode
      | some bytes =>
          require (bytes.length ≤ maxSchemaBytes)
            (.projectInvalid "parameter Schema exceeds 64 KiB")

/-- What is returned has been written with `sort_keys=True` and read again. -/
def validateParameterSchema (schema : Option Members) : Except ParameterError Members := do
  let candidate := candidateOf schema
  let properties ← checkRoot candidate
  properties.forM fun property => checkProperty property.1 property.2
  checkText candidate
  return Json.sorted candidate

/-! ## The values -/

/-- The values of a run, with the secret ones apart. -/
structure ValidatedParameters where
  publicValues : Members := []
  secretValues : List (Text × Text) := []
  suppliedNames : List Text := []
  deriving Repr

/-- The value of a parameter, if it has one. -/
def valueOf (required : List Text) (values : Members) (name : Text) (definition : Members) :
    Except ParameterError (Option Json) :=
  match values.lookup name with
  | some value => .ok (some value)
  | none =>
      match definition.lookup (text "default") with
      | some value => .ok (some value)
      | none => do
          require (name ∉ required)
            (.validation "required Playbook parameter is missing" (.field name))
          return none

/-- The value is one of the enum, if there is one. -/
def checkEnum (name : Text) (definition : Members) (value : Json) : Except ParameterError Unit :=
  match definition.lookup (text "enum") with
  | none => .ok ()
  | some (.arr items) =>
      require (isIn value items)
        (.validation "Playbook parameter is outside its enum" (.field name))
  | some _ => .error .typeError

/-- A limit of the length, if it is an integer; `True` is one. -/
def lengthLimit (definition : Members) (key : String) : Option Int :=
  match get definition key with
  | some (.int n) => some n
  | some (.bool value) => some (if value then 1 else 0)
  | _ => none

/-- A limit of the range, if it is a number. -/
def rangeLimit (definition : Members) (key : String) : Option Json :=
  (get definition key).filter fun limit => (Json.numeric? limit).isSome

/-- The limits of the length or of the range, whichever the value has. -/
def checkLimits (name : Text) (definition : Members) (value : Json) :
    Except ParameterError Unit :=
  match value with
  | .str s => do
      require (∀ minimum ∈ lengthLimit definition "minLength", minimum ≤ s.length)
        (.validation "Playbook parameter is too short" (.field name))
      require (∀ maximum ∈ lengthLimit definition "maxLength", s.length ≤ maximum)
        (.validation "Playbook parameter is too long" (.field name))
  | .int _ | .float _ => do
      require (∀ minimum ∈ rangeLimit definition "minimum", ¬ Json.less value minimum)
        (.validation "Playbook parameter is below minimum" (.field name))
      require (∀ maximum ∈ rangeLimit definition "maximum", ¬ Json.less maximum value)
        (.validation "Playbook parameter is above maximum" (.field name))
  | _ => .ok ()

/-- The checks of one value against its property. -/
def checkValue (name : Text) (definition : Members) (value : Json) :
    Except ParameterError Unit := do
  match definition.lookup (text "type") with
  | none => .error .keyError
  | some valueType => validateParameterType name valueType value
  checkEnum name definition value
  checkLimits name definition value

/-- The value is stored with the public or with the secret ones. -/
def store (result : ValidatedParameters) (name : Text) (definition : Members) (value : Json) :
    Except ParameterError ValidatedParameters :=
  if ∃ marker ∈ definition.lookup (text "x-ops-composer-sensitive"), marker.truthy then
    match value with
    | .str s => .ok { result with secretValues := result.secretValues ++ [(name, s)] }
    | _ => .error .assertionError
  else .ok { result with publicValues := result.publicValues ++ [(name, value)] }

/-- One iteration of the loop over the properties. -/
def validateParameter (required : List Text) (values : Members) (result : ValidatedParameters)
    (property : Text × Json) : Except ParameterError ValidatedParameters :=
  match property.2 with
  | .obj definition => do
      match ← valueOf required values property.1 definition with
      | none => return result
      | some value =>
          checkValue property.1 definition value
          store result property.1 definition value
  | _ => .error .assertionError

/-- `validate_parameters`: the schema is validated again first. -/
def validateParameters (schema : Members) (values : Members) :
    Except ParameterError ValidatedParameters := do
  let normalizedSchema ← validateParameterSchema (some schema)
  match normalizedSchema.lookup (text "properties") with
  | none => .error .keyError
  | some (.obj properties) =>
      match (normalizedSchema.lookup (text "required")).getD (.arr []) with
      | .arr required =>
          let unexpected := sortedBy id <|
            (Json.keys values).filter fun name => name ∉ Json.keys properties
          require (unexpected = [])
            (.validation "unknown Playbook parameters" (.fields unexpected))
          let result ← properties.foldlM (validateParameter (required.filterMap string?) values) {}
          return { result with suppliedNames := sortedBy id (Json.keys values) }
      | _ => .error .assertionError
  | some _ => .error .assertionError

end PlaybookProject

end OpsComposer.Services
