import OpsComposer.Foundations.RowQueries
import OpsComposer.Projects.Revalidation
import OpsComposer.Services.Retries

/-!
# What the rows of runs record

The operation of a run with a project has the parameters recorded that a validation against
the pinned revision has returned (`Made.project`).  Every other operation is as it came, without
names of parameters (`Made.plain`).  A retry makes the first kind again, and copies the second
one (`retryOperation_made`).
-/

set_option autoImplicit false

namespace OpsComposer.RunSpecs

open Domain (Uuid RunKind RunStatus)
open Foundations Services Playbooks
open Services.PlaybookProject (JsonDict Members ValidatedParameters Revalidated
  bind_eq_ok validateParameters string? filterMap_string? revalidated_of_returned
  suppliedNames_eq_iff)

/-! ## Outcomes -/

section Outcomes

variable {α : Type}

theorem require_eq_ok {condition : Prop} [Decidable condition] {error : RunError} {done : Unit} :
    require condition error = .ok done ↔ condition := by
  unfold require
  split <;> simp_all

theorem orRaise_eq_ok {error : RunError} {found : Option α} {a : α} :
    orRaise error found = .ok a ↔ found = some a := by
  cases found with
  | none => exact ⟨fun same => (nomatch same), fun same => (nomatch same)⟩
  | some b => exact ⟨fun same => Except.ok.inj same ▸ rfl, fun same => Option.some.inj same ▸ rfl⟩

end Outcomes

/-! ## Recorded parameters -/

/-- The members of an operation that record a validation. -/
structure Recorded (operationSpec : Members) (result : ValidatedParameters) : Prop where
  extraVars : operationSpec.lookup (text "extraVars") = some (.obj result.publicValues)
  names : operationSpec.lookup (text "parameterNames") = some (texts result.suppliedNames)
  secretNames : operationSpec.lookup (text "secretParameterNames") =
    some (texts (sortedBy id (Json.keys result.secretValues)))

theorem texts_injective {names others : List Text} (same : texts names = texts others) :
    names = others :=
  List.map_injective_iff.mpr (fun _ _ => Json.str.inj) (Json.arr.inj same)

section Recording

variable {operationSpec : Members} {result result' : ValidatedParameters}

theorem recorded (operationSpec : Members) (result : ValidatedParameters) :
    Recorded (recordParameters operationSpec result) result := by
  have apart : text "extraVars" ≠ text "parameterNames" ∧
      text "extraVars" ≠ text "secretParameterNames" ∧
      text "parameterNames" ≠ text "secretParameterNames" := by decide
  refine ⟨?_, ?_, ?_⟩
  · rw [recordParameters, Json.lookup_set, if_neg apart.2.1, Json.lookup_set, if_neg apart.1,
      Json.lookup_set, if_pos rfl]
  · rw [recordParameters, Json.lookup_set, if_neg apart.2.2, Json.lookup_set, if_pos rfl]
  · rw [recordParameters, Json.lookup_set, if_pos rfl]

/-- Recording what is recorded already. -/
theorem Recorded.again (records : Recorded operationSpec result)
    (again : Revalidated result result') :
    recordParameters operationSpec result' = operationSpec ↔
      sortedBy id (Json.keys result.union) = result.suppliedNames := by
  constructor
  · intro same
    have names := (recorded operationSpec result').names
    rw [same, records.names, again.suppliedNames] at names
    exact (texts_injective (Option.some.inj names)).symm
  · intro same
    rw [recordParameters, again.publicValues, again.suppliedNames, again.secretNames, same,
      Json.set_of_lookup records.extraVars, Json.set_of_lookup records.names,
      Json.set_of_lookup records.secretNames]

theorem Recorded.rawPublic (records : Recorded operationSpec result) :
    rawPublic operationSpec = .ok result.publicValues := by
  rw [RunSpecs.rawPublic, records.extraVars]
  rfl

theorem Recorded.secretParameterNames (records : Recorded operationSpec result) :
    secretParameterNames operationSpec =
      .ok (sortedBy id (Json.keys result.secretValues)) := by
  have all : ∀ item ∈ (sortedBy id (Json.keys result.secretValues)).map Json.str,
      (string? item).isSome := by
    intro item member
    obtain ⟨name, -, rfl⟩ := List.mem_map.mp member
    rfl
  rw [RunSpecs.secretParameterNames, records.secretNames]
  show (require _ _ >>= fun _ => _) = _
  rw [require, if_pos all]
  exact congrArg Except.ok (filterMap_string? _)

end Recording

/-! ## How an operation has been made -/

/-- The revision of a playbook that a run has pinned, if it is one of the database. -/
def RunSpec.pinned? (spec : RunSpec) (store : PlaybookStore) : Option PlaybookRevision :=
  match spec.kind, spec.playbookId with
  | .playbook, some playbookId => store.revision? playbookId (spec.playbookRevision.getD 0)
  | _, _ => none

/-- The run has no revision of a playbook, as long as it is no run of a playbook of the
database. -/
def RunSpec.Unpinned (spec : RunSpec) : Prop := spec.kind ≠ .playbook ∨ spec.playbookId = none

theorem RunSpec.Unpinned.pinned_eq_none {spec : RunSpec} (unpinned : spec.Unpinned)
    (store : PlaybookStore) : spec.pinned? store = none := by
  unfold RunSpec.pinned?
  split
  · rename_i kind playbook
    rcases unpinned with other | none
    · exact absurd kind other
    · cases none.symm.trans playbook
  · rfl

/-- How the operation of a run has been made. -/
inductive Made (store : PlaybookStore) (spec : RunSpec) : Prop where
  | project (revision : PlaybookRevision) (schema : JsonDict) (values : Members)
      (result : ValidatedParameters) (pinned : spec.pinned? store = some revision)
      (format : revision.revisionFormat = .project)
      (dict : schemaDict revision.parameterSchema = .ok schema)
      (distinct : (Json.keys values).Nodup)
      (returned : validateParameters schema.members values = .ok result)
      (records : Recorded spec.operationSpec result)
  | plain (legacy : spec.Unpinned ∨ ∃ revision, spec.pinned? store = some revision ∧
        revision.revisionFormat = .legacySingleYaml)
      (nameless : spec.operationSpec.lookup (text "parameterNames") = none)

/-- No parameter of a run has got its value from a default: every public one has been supplied
by name. -/
def Explicit (operationSpec : Members) : Prop :=
  ∀ names values, operationSpec.lookup (text "parameterNames") = some (texts names) →
    operationSpec.lookup (text "extraVars") = some (.obj values) →
      ∀ name ∈ Json.keys values, name ∈ names

variable {secretNames : List Text} {operationSpec supplied : Members}
  {operation : Members × List (Text × Text)} {revision : PlaybookRevision} {store : PlaybookStore}
  {source : StoredRun} {result : ValidatedParameters}

theorem Recorded.explicit_iff (records : Recorded operationSpec result) :
    Explicit operationSpec ↔
      ∀ name ∈ Json.keys result.publicValues, name ∈ result.suppliedNames := by
  constructor
  · exact fun explicit => explicit _ _ records.names records.extraVars
  · intro all names values found found'
    obtain rfl := texts_injective (Option.some.inj (records.names.symm.trans found))
    obtain rfl := Json.obj.inj (Option.some.inj (records.extraVars.symm.trans found'))
    exact all

/-! ## The operation of a retry -/

/-- A retry is asked for with the secret parameters of the run, and with nothing else. -/
def OnlySecrets (operationSpec supplied : Members) : Prop :=
  ∀ names, secretParameterNames operationSpec = .ok names →
    ∀ name, name ∈ Json.keys supplied ↔ name ∈ names

theorem explicit_of_nameless
    (nameless : operationSpec.lookup (text "parameterNames") = none) : Explicit operationSpec :=
  fun _ _ found => nomatch nameless.symm.trans found

theorem validated_eq_ok {schema : JsonDict}
    (dict : schemaDict revision.parameterSchema = .ok schema) :
    validated revision supplied = .ok result ↔
      validateParameters schema.members supplied = .ok result := by
  rw [validated, bind_eq_ok, dict]
  cases outcome : validateParameters schema.members supplied with
  | ok other | error error => simp [outcome]

/-- The operation of a run without a project is copied. -/
theorem retryOperation_plain
    (legacy : source.spec.Unpinned ∨ ∃ revision, source.spec.pinned? store = some revision ∧
      revision.revisionFormat = .legacySingleYaml)
    (done : retryOperation store source secretNames supplied = .ok operation) :
    operation.1 = source.spec.operationSpec := by
  unfold retryOperation at done
  split at done
  · rename_i kind playbook
    rcases legacy with unpinned | ⟨revision, pinned, format⟩
    · rcases unpinned with other | none
      · exact absurd kind other
      · cases none.symm.trans playbook
    · rw [RunSpec.pinned?, kind, playbook] at pinned
      obtain ⟨found, isFound, rest⟩ := bind_eq_ok.mp done
      obtain rfl := Option.some.inj (pinned.symm.trans (orRaise_eq_ok.mp isFound))
      rw [format] at rest
      obtain ⟨-, -, rest⟩ := bind_eq_ok.mp rest
      exact congrArg Prod.fst (Except.ok.inj rest).symm
  · obtain ⟨-, -, rest⟩ := bind_eq_ok.mp done
    exact congrArg Prod.fst (Except.ok.inj rest).symm

/-- The operation of a run with a project is validated again. -/
theorem retryOperation_project {schema : JsonDict}
    (pinned : source.spec.pinned? store = some revision)
    (format : revision.revisionFormat = .project)
    (dict : schemaDict revision.parameterSchema = .ok schema)
    (records : Recorded source.spec.operationSpec result)
    (done : retryOperation store source secretNames supplied = .ok operation) :
    ∃ result', validateParameters schema.members (Json.merge result.publicValues supplied) =
        .ok result' ∧ operation.1 = recordParameters source.spec.operationSpec result' := by
  unfold retryOperation at done
  split at done
  · rename_i kind playbook
    rw [RunSpec.pinned?, kind, playbook] at pinned
    obtain ⟨found, isFound, rest⟩ := bind_eq_ok.mp done
    obtain rfl := Option.some.inj (pinned.symm.trans (orRaise_eq_ok.mp isFound))
    rw [format] at rest
    obtain ⟨stored, isStored, rest⟩ := bind_eq_ok.mp rest
    obtain rfl := Except.ok.inj (records.rawPublic.symm.trans isStored)
    obtain ⟨-, -, rest⟩ := bind_eq_ok.mp rest
    obtain ⟨result', returned, rest⟩ := bind_eq_ok.mp rest
    obtain ⟨-, -, rest⟩ := bind_eq_ok.mp rest
    exact ⟨result', (validated_eq_ok dict).mp returned, congrArg Prod.fst (Except.ok.inj rest).symm⟩
  · rename_i other
    exfalso
    rw [RunSpec.pinned?] at pinned
    split at pinned
    · rename_i kind playbook
      exact other _ kind playbook
    · cases pinned

/-- A retry makes an operation of the same kind. -/
theorem retryOperation_made (made : Made store source.spec)
    (done : retryOperation store source secretNames supplied = .ok operation) :
    Made store { source.spec with operationSpec := operation.1 } := by
  cases made with
  | plain legacy nameless =>
      rw [retryOperation_plain legacy done]
      exact .plain legacy nameless
  | project revision schema values result pinned format dict distinct returned records =>
      obtain ⟨result', returned', same⟩ :=
        retryOperation_project pinned format dict records done
      rw [same]
      exact .project revision schema _ result' pinned format dict
        (Json.nodup_merge (PlaybookProject.nodup_keys_public returned)) returned' (recorded _ _)

/-- **The operation of a retry with the same secret parameters**: no parameter of it has got
its value from a default, and it is the old one just when that was so before. -/
theorem retryOperation_explicit (made : Made store source.spec)
    (distinct : (Json.keys supplied).Nodup) (only : OnlySecrets source.spec.operationSpec supplied)
    (done : retryOperation store source secretNames supplied = .ok operation) :
    Explicit operation.1 ∧
      (operation.1 = source.spec.operationSpec ↔ Explicit source.spec.operationSpec) := by
  cases made with
  | plain legacy nameless =>
      rw [retryOperation_plain legacy done]
      have explicit := explicit_of_nameless nameless
      exact ⟨explicit, iff_of_true rfl explicit⟩
  | project revision schema values result pinned format dict distinct' returned records =>
      obtain ⟨result', returned', same⟩ :=
        retryOperation_project pinned format dict records done
      have secrets : ∀ name, name ∈ Json.keys supplied ↔ name ∈ Json.keys result.secretValues :=
        fun name => (only _ records.secretParameterNames name).trans mem_sortedBy
      have again := revalidated_of_returned returned distinct secrets returned'
      rw [same]
      constructor
      · refine (recorded _ result').explicit_iff.mpr fun name isPublic => ?_
        rw [again.publicValues] at isPublic
        rw [again.suppliedNames]
        refine mem_sortedBy.mpr ?_
        rw [PlaybookProject.keys_union]
        exact List.mem_append_left _ isPublic
      · rw [records.again again, records.explicit_iff]
        exact suppliedNames_eq_iff returned distinct'

/-! ## The operation of a new run -/

/-- What every request for a run has. -/
structure Plain (request : CreateRequest) : Prop where
  nameless : request.operationSpec.lookup (text "parameterNames") = none
  distinct : (Json.keys request.playbookParameters).Nodup
  playbook : ∀ playbookId, request.databasePlaybookId = some playbookId →
    request.kind = .playbook

theorem plain_of_call {settings : RunSettings} {call : CreateCall} {request : CreateRequest}
    (asked : call.request settings = .ok request) : Plain request := by
  cases call with
  | command base mode commandLine become shellConfirmed =>
      obtain ⟨-, -, rest⟩ := bind_eq_ok.mp asked
      obtain ⟨-, -, rest⟩ := bind_eq_ok.mp rest
      obtain ⟨-, -, rest⟩ := bind_eq_ok.mp rest
      obtain ⟨-, -, rest⟩ := bind_eq_ok.mp rest
      obtain rfl := Except.ok.inj rest
      exact ⟨rfl, List.nodup_nil, fun _ none => nomatch none⟩
  | ping base hostId =>
      obtain rfl := Except.ok.inj asked
      exact ⟨rfl, List.nodup_nil, fun _ none => nomatch none⟩
  | playbook base reference supplied checkMode tags skipTags =>
      obtain ⟨-, -, rest⟩ := bind_eq_ok.mp asked
      obtain ⟨-, -, rest⟩ := bind_eq_ok.mp rest
      cases reference with
      | database playbookId =>
          obtain rfl := Except.ok.inj rest
          exact ⟨rfl, (Json.keyed_obj.mp supplied.keyed).1, fun _ _ => rfl⟩
      | mount found =>
          obtain ⟨mounted, -, rest⟩ := bind_eq_ok.mp rest
          obtain ⟨-, -, rest⟩ := bind_eq_ok.mp rest
          obtain ⟨-, -, rest⟩ := bind_eq_ok.mp rest
          obtain rfl := Except.ok.inj rest
          exact ⟨rfl, List.nodup_nil, fun _ none => nomatch none⟩

/-- The revision of a document is the one with its number. -/
theorem revision_of_document {playbookId : Uuid} {document : DatabasePlaybook × PlaybookRevision}
    (found : document? store playbookId = some document) :
    store.revision? playbookId document.2.revision = some document.2 := by
  obtain ⟨playbook, isPlaybook, rest⟩ := Option.bind_eq_some_iff.mp found
  obtain ⟨-, rest⟩ := Option.ite_none_right_eq_some.mp rest
  obtain ⟨revision, isRevision, rfl⟩ := Option.map_eq_some_iff.mp rest
  have key : PlaybookKey.playbook playbook.playbookId = .playbook playbookId :=
    RowStore.key_of_lookup (RowKind.at?_eq_some.mp isPlaybook)
  obtain same := PlaybookKey.playbook.inj key
  have key' : PlaybookKey.revision revision.playbookId revision.revision =
      .revision playbook.playbookId playbook.currentRevision :=
    RowStore.key_of_lookup (RowKind.at?_eq_some.mp isRevision)
  rw [(PlaybookKey.revision.inj key').2, ← same]
  exact isRevision

/-- Pinning a revision adds no names of parameters. -/
theorem nameless_of_pinned {pinned : Members}
    (nameless : operationSpec.lookup (text "parameterNames") = none)
    (done : pinRevision operationSpec revision = .ok pinned) :
    pinned.lookup (text "parameterNames") = none := by
  have apart : text "parameterNames" ≠ text "playbook" := by decide
  unfold pinRevision at done
  split at done
  · obtain rfl := Except.ok.inj done
    rw [Json.lookup_set, if_neg apart]
    exact nameless
  · cases done

/-- **The operation that a creation makes.** -/
theorem made_of_resolved {request : CreateRequest} {operation : ResolvedOperation}
    (plain : Plain request) (done : resolveOperation store request = .ok operation)
    (hosts : List ResolvedHost) (requestFingerprint : Bytes) :
    Made store (newRun request hosts operation requestFingerprint).spec := by
  unfold resolveOperation at done
  split at done
  · rename_i none
    obtain rfl := Except.ok.inj done
    exact .plain (.inl (.inr none)) plain.nameless
  · rename_i playbookId isIt
    obtain ⟨document, found, rest⟩ := bind_eq_ok.mp done
    obtain ⟨-, -, rest⟩ := bind_eq_ok.mp rest
    obtain ⟨pinned, isPinned, rest⟩ := bind_eq_ok.mp rest
    have stored := revision_of_document (orRaise_eq_ok.mp found)
    have nameless := nameless_of_pinned plain.nameless isPinned
    split at rest
    · rename_i format
      obtain ⟨result, returned, rest⟩ := bind_eq_ok.mp rest
      obtain ⟨-, -, rest⟩ := bind_eq_ok.mp rest
      obtain rfl := Except.ok.inj rest
      obtain ⟨schema, dict, -⟩ := bind_eq_ok.mp returned
      refine .project document.2 schema request.playbookParameters result ?_ format dict
        plain.distinct ((validated_eq_ok dict).mp returned) (recorded pinned result)
      rw [RunSpec.pinned?, newRun, plain.playbook playbookId isIt, isIt]
      exact stored
    · rename_i format
      obtain ⟨-, -, rest⟩ := bind_eq_ok.mp rest
      obtain ⟨-, -, rest⟩ := bind_eq_ok.mp rest
      obtain rfl := Except.ok.inj rest
      have apart : text "parameterNames" ≠ text "extraVars" := by decide
      refine .plain (.inr ⟨document.2, ?_, format⟩) ?_
      · rw [RunSpec.pinned?, newRun, plain.playbook playbookId isIt, isIt]
        exact stored
      · show (Json.set pinned _ _).lookup _ = none
        rw [Json.lookup_set, if_neg apart]
        exact nameless

end OpsComposer.RunSpecs
