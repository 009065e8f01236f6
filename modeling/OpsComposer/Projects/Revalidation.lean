import OpsComposer.Foundations.JsonDicts
import OpsComposer.Projects.ParameterContract

/-!
# Validating what has been stored

Values have been validated, and their public part has been stored.  Validated again together
with values for the same secret parameters, the public part comes out as it is, and so do the
names of the secret ones.  The names that have been supplied are now all of them
(`Revalidated`): a parameter that has got its default counts as one that has been supplied.
-/

set_option autoImplicit false

namespace OpsComposer.Services.PlaybookProject

open Foundations

section Outcome

variable {schema : JsonDict} {values supplied : Members} {result result' : ValidatedParameters}

/-- A schema with which values have been validated is an accepted one with properties. -/
theorem accepted_of_returned (returned : validateParameters schema.members values = .ok result) :
    ∃ properties, Accepted (candidateOf (some schema.members)) properties := by
  obtain ⟨normalized, accepts, rest⟩ := bind_eq_ok.mp returned
  obtain ⟨⟨properties, fits⟩, rfl⟩ := validateParameterSchema_eq_ok.mp accepts
  rcases fits.root.found with ⟨none, -⟩ | ⟨found, -⟩
  · rw [Json.lookup_sorted (keys_candidate (keyed_candidateOf schema)), none] at rest
    cases rest
  · exact ⟨properties, keyed_candidateOf schema, found, fits⟩

end Outcome

section Parts

variable {candidate properties values supplied : Members}

theorem Accepted.nodup_public (accepted : Accepted candidate properties) :
    (Json.keys (resultOf (Json.sorted properties) values).publicValues).Nodup := by
  have distinct : (Json.keys (resultOf (Json.sorted properties) values).union).Nodup :=
    accepted.nodup_union
  rw [keys_union] at distinct
  exact (List.nodup_append.mp distinct).1

theorem Accepted.nodup_secret (accepted : Accepted candidate properties) :
    (Json.keys (resultOf (Json.sorted properties) values).secretValues).Nodup := by
  have distinct : (Json.keys (resultOf (Json.sorted properties) values).union).Nodup :=
    accepted.nodup_union
  rw [keys_union] at distinct
  exact (List.nodup_append.mp distinct).2.1

/-- A parameter that is not marked has the same value among the public ones. -/
theorem Accepted.given_public (accepted : Accepted candidate properties) {name : Text}
    {definition : Members} (there : (name, .obj definition) ∈ properties)
    (plain : sensitive definition = false) :
    given (resultOf (Json.sorted properties) values).publicValues name definition =
      given values name definition := by
  cases has : given values name definition with
  | some value =>
      have member : (name, value) ∈ (resultOf (Json.sorted properties) values).publicValues :=
        accepted.mem_public.mpr ⟨definition, there, plain, has⟩
      rw [given, (Json.lookup_eq_some accepted.nodup_public).mpr member]
      rfl
  | none =>
      refine given_eq_none.mpr ⟨fun inside => ?_, (given_eq_none.mp has).2⟩
      obtain ⟨entry, member, rfl⟩ := List.mem_map.mp inside
      obtain ⟨other, there', -, has'⟩ := accepted.mem_public.mp member
      rw [accepted.definition_unique there there'] at has'
      cases has.symm.trans has'

/-- A parameter that is marked has no default. -/
theorem Accepted.no_default (accepted : Accepted candidate properties) {name : Text}
    {definition : Members} (there : (name, .obj definition) ∈ properties)
    (marked : sensitive definition = true) : definition.lookup (text "default") = none := by
  obtain ⟨_, valueType, same, -, -, fits⟩ := accepted.defines there
  obtain rfl := Json.obj.inj same
  exact (fits.sensitive (sensitive_iff.mp marked)).2

/-- The names of the secret values are those of the marked parameters with a value. -/
theorem Accepted.mem_keys_secret (accepted : Accepted candidate properties) {required : List Text}
    (passes : ∀ property ∈ properties, Passes required values property) {name : Text} :
    name ∈ Json.keys (resultOf (Json.sorted properties) values).secretValues ↔
      ∃ definition, (name, .obj definition) ∈ properties ∧ sensitive definition = true ∧
        name ∈ Json.keys values := by
  constructor
  · intro inside
    obtain ⟨entry, member, rfl⟩ := List.mem_map.mp inside
    obtain ⟨definition, there, marked, has⟩ := accepted.mem_secret.mp member
    refine ⟨definition, there, marked, ?_⟩
    by_contra absent
    rw [given_eq_none.mpr ⟨absent, accepted.no_default there marked⟩] at has
    cases has
  · rintro ⟨definition, there, marked, supplied⟩
    obtain ⟨value, has⟩ := Option.ne_none_iff_exists'.mp fun none =>
      (given_eq_none.mp none).1 supplied
    have member := (accepted.mem_union passes).mpr ⟨definition, there, has⟩
    rcases List.mem_append.mp member with isPublic | isSecret
    · obtain ⟨other, there', plain, -⟩ := accepted.mem_public.mp isPublic
      rw [accepted.definition_unique there there', marked] at plain
      cases plain
    · obtain ⟨secret, inside, same⟩ := List.mem_map.mp isSecret
      obtain ⟨rfl, -⟩ := Prod.mk.inj same
      exact List.mem_map_of_mem inside

end Parts

theorem nodup_keys_public {schema : JsonDict} {values : Members} {result : ValidatedParameters}
    (returned : validateParameters schema.members values = .ok result) :
    (Json.keys result.publicValues).Nodup := by
  obtain ⟨properties, accepted⟩ := accepted_of_returned returned
  obtain ⟨-, -, rfl⟩ := accepted.validateParameters_eq_ok.mp returned
  exact accepted.nodup_public

/-- What a validation of the stored public values with the secret ones comes to. -/
structure Revalidated (result result' : ValidatedParameters) : Prop where
  publicValues : result'.publicValues = result.publicValues
  secretNames : sortedBy id (Json.keys result'.secretValues) =
    sortedBy id (Json.keys result.secretValues)
  suppliedNames : result'.suppliedNames = sortedBy id (Json.keys result.union)

section Again

variable {schema : JsonDict} {values supplied : Members} {result result' : ValidatedParameters}

/-- **A second validation** with values for the same secret parameters. -/
theorem revalidated_of_returned (returned : validateParameters schema.members values = .ok result)
    (distinct : (Json.keys supplied).Nodup)
    (secrets : ∀ name, name ∈ Json.keys supplied ↔ name ∈ Json.keys result.secretValues)
    (again : validateParameters schema.members (Json.merge result.publicValues supplied) =
      .ok result') : Revalidated result result' := by
  obtain ⟨properties, accepted⟩ := accepted_of_returned returned
  obtain ⟨declared, passes, rfl⟩ := accepted.validateParameters_eq_ok.mp returned
  obtain ⟨declared', passes', rfl⟩ := accepted.validateParameters_eq_ok.mp again
  set merged := Json.merge (resultOf (Json.sorted properties) values).publicValues supplied
  have lookups : ∀ name, merged.lookup name = (supplied.lookup name).or
      ((resultOf (Json.sorted properties) values).publicValues.lookup name) :=
    fun name => Json.lookup_merge distinct
  have names : ∀ name, name ∈ Json.keys merged ↔
      name ∈ Json.keys (resultOf (Json.sorted properties) values).union := by
    intro name
    rw [Json.mem_keys_merge, keys_union, List.mem_append, secrets]
  refine ⟨List.filterMap_congr ?_, ?_, ?_⟩
  · rintro ⟨name, raw⟩ member
    obtain ⟨definition, there, rfl⟩ := accepted.mem_sorted.mp member
    have sorted := accepted.lookup_definition there
    simp only [publicOf, sensitive_of_lookup sorted, given_of_lookup sorted]
    cases marked : sensitive definition with
    | true => rfl
    | false =>
        have absent : supplied.lookup name = none := by
          refine Json.lookup_eq_none.mpr fun inside => ?_
          obtain ⟨other, there', marked', -⟩ :=
            (accepted.mem_keys_secret passes).mp ((secrets name).mp inside)
          rw [accepted.definition_unique there there', marked] at marked'
          cases marked'
        have same : given merged name definition = given
            (resultOf (Json.sorted properties) values).publicValues name definition := by
          rw [given, lookups, absent]
          rfl
        rw [same, accepted.given_public there marked]
  · refine (Json.sortedBy_eq_iff accepted.nodup_secret accepted.nodup_secret).mpr fun name => ?_
    rw [accepted.mem_keys_secret passes', accepted.mem_keys_secret passes]
    refine exists_congr fun definition => and_congr_right fun there => and_congr_right fun marked =>
      ?_
    rw [names, keys_union, List.mem_append, accepted.mem_keys_secret passes]
    constructor
    · rintro (isPublic | ⟨-, -, -, inside⟩)
      · obtain ⟨entry, member, rfl⟩ := List.mem_map.mp isPublic
        obtain ⟨other, there', plain, -⟩ := accepted.mem_public.mp member
        rw [accepted.definition_unique there there', marked] at plain
        cases plain
      · exact inside
    · exact fun inside => .inr ⟨definition, there, marked, inside⟩
  · exact (Json.sortedBy_eq_iff (Json.nodup_merge accepted.nodup_public)
      accepted.nodup_union).mpr names

/-- The supplied names are all of them just when no public value is a default. -/
theorem suppliedNames_eq_iff (returned : validateParameters schema.members values = .ok result)
    (distinct : (Json.keys values).Nodup) :
    sortedBy id (Json.keys result.union) = result.suppliedNames ↔
      ∀ name ∈ Json.keys result.publicValues, name ∈ result.suppliedNames := by
  obtain ⟨properties, accepted⟩ := accepted_of_returned returned
  obtain ⟨declared, passes, rfl⟩ := accepted.validateParameters_eq_ok.mp returned
  have split := accepted.split declared passes
  have supplied : ∀ name, name ∈ (resultOf (Json.sorted properties) values).suppliedNames ↔
      name ∈ Json.keys values := fun name => mem_sortedBy
  refine (Json.sortedBy_eq_iff accepted.nodup_union distinct).trans ?_
  constructor
  · intro same name isPublic
    refine (supplied name).mpr ((same name).mp ?_)
    rw [keys_union]
    exact List.mem_append_left _ isPublic
  · intro explicit name
    refine ⟨fun inside => ?_, fun inside => (split.covers name).mpr (.inl inside)⟩
    rw [keys_union, List.mem_append] at inside
    rcases inside with isPublic | isSecret
    · exact (supplied name).mp (explicit name isPublic)
    · obtain ⟨-, -, -, there⟩ := (accepted.mem_keys_secret passes).mp isSecret
      exact there

end Again

end OpsComposer.Services.PlaybookProject
