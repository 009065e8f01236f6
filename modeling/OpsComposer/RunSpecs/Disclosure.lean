import OpsComposer.RunSpecs.ExtraVars
import OpsComposer.RunSpecs.Reproduction

/-!
# What a run stores in clear

The variables of a run are stored in the specification of its operation, where the worker reads
them.  Which of them are secret is decided in two ways.  The variables of a mounted playbook and
of a single file are refused by their names; the parameters of a project are taken apart by its
schema, whatever they are called, and what is marked there is stored in an envelope.

So a value under a sensitive name gets into a specification in two ways (`Guarded`): the name is
one that the validation misses, or it is the name of a public parameter.  Apart from these two
none is ever stored (`noneStored_of_guarded`), and each of them stores one (`noneStored_fails`).
-/

set_option autoImplicit false

namespace OpsComposer.RunSpecs

open Domain (Uuid RunKind RunStatus)
open Foundations Services Playbooks
open Services.PlaybookProject (bind_eq_ok JsonDict Members ValidatedParameters
  PropertiesOf ValueType validateParameters schemaWith)
open Services.Redaction (isSensitiveKey)

/-! ## Values in clear -/

/-- A value under the key is stored with the variables of an operation. -/
def InClear (key : Text) (operationSpec : Members) : Prop :=
  ∃ values, operationSpec.lookup (text "extraVars") = some (.obj values) ∧
    Occurs key (.obj values)

/-- Nothing that the worker would redact for its key is stored. -/
def NoneInClear (operationSpec : Members) : Prop :=
  ∀ key, isSensitiveKey key = true → ¬ InClear key operationSpec

theorem noneInClear_of_none {operationSpec : Members}
    (none : operationSpec.lookup (text "extraVars") = none) : NoneInClear operationSpec := by
  rintro key - ⟨values, found, -⟩
  cases none.symm.trans found

/-- The variables of an operation decide. -/
theorem noneInClear_iff {operationSpec values : Members}
    (found : operationSpec.lookup (text "extraVars") = some (.obj values)) :
    NoneInClear operationSpec ↔
      ∀ key, isSensitiveKey key = true → ¬ Occurs key (.obj values) := by
  have only : ∀ key, InClear key operationSpec ↔ Occurs key (.obj values) := by
    intro key
    constructor
    · rintro ⟨others, found', occurs⟩
      obtain rfl := Json.obj.inj (Option.some.inj (found.symm.trans found'))
      exact occurs
    · exact fun occurs => ⟨values, found, occurs⟩
  simp only [NoneInClear, only]

/-! ## The parameters of a project -/

/-- The schema makes a parameter with a sensitive name public, and the parameter has a value:
one that is supplied, or its default. -/
def Exposes (schema : JsonDict) (values : Members) : Prop :=
  ∃ properties name definition, PropertiesOf schema properties ∧
    (name, .obj definition) ∈ properties ∧ isSensitiveKey name = true ∧
      definition.lookup (text "x-ops-composer-sensitive") ≠ some (.bool true) ∧
        (name ∈ Json.keys values ∨ (definition.lookup (text "default")).isSome)

/-- The values of a type have no keys. -/
theorem not_occurs_of_admits {valueType : ValueType} {value : Json} (typed : valueType.Admits value)
    (key : Text) : ¬ Occurs key value := by
  intro occurs
  cases valueType with
  | string =>
      obtain ⟨s, rfl⟩ := typed
      cases occurs
  | integer =>
      obtain ⟨n, rfl⟩ := typed
      cases occurs
  | boolean =>
      obtain ⟨b, rfl⟩ := typed
      cases occurs
  | number =>
      obtain ⟨q, isNumber⟩ := typed
      cases occurs <;> cases isNumber

/-- The public values have no keys but their names. -/
theorem occurs_public_iff {schema : JsonDict} {values : Members} {result : ValidatedParameters}
    (returned : validateParameters schema.members values = .ok result) (key : Text) :
    Occurs key (.obj result.publicValues) ↔ key ∈ Json.keys result.publicValues := by
  obtain ⟨properties, accepted⟩ := PlaybookProject.accepted_of_returned returned
  obtain ⟨-, passes, rfl⟩ := accepted.validateParameters_eq_ok.mp returned
  constructor
  · intro occurs
    cases occurs with
    | here member => exact member
    | value member below =>
        obtain ⟨definition, there, -, has⟩ := accepted.mem_public.mp member
        have satisfies := (PlaybookProject.passes_obj.mp (passes _ there)).2 _ has
        obtain ⟨valueType, -, typed⟩ := satisfies.typed
        exact absurd below (not_occurs_of_admits typed key)
  · exact .here

/-- **The parameters of a project** that are recorded have no sensitive name, just when the
schema exposes none. -/
theorem noneInClear_recorded {schema : JsonDict} {values : Members} {result : ValidatedParameters}
    (returned : validateParameters schema.members values = .ok result) (operationSpec : Members) :
    NoneInClear (recordParameters operationSpec result) ↔ ¬ Exposes schema values := by
  rw [noneInClear_iff (recorded operationSpec result).extraVars]
  simp only [occurs_public_iff returned]
  obtain ⟨properties, accepted⟩ := PlaybookProject.accepted_of_returned returned
  obtain ⟨-, passes, rfl⟩ := accepted.validateParameters_eq_ok.mp returned
  constructor
  · rintro none ⟨others, name, definition, declares, there, sensitive, plain, has⟩
    obtain rfl := Json.obj.inj (Option.some.inj (accepted.found.symm.trans declares))
    obtain ⟨value, given⟩ := Option.ne_none_iff_exists'.mp fun absent => by
      obtain ⟨missing, noDefault⟩ := PlaybookProject.given_eq_none.mp absent
      rcases has with supplied | default
      · exact missing supplied
      · rw [noDefault] at default
        cases default
    have unmarked : PlaybookProject.sensitive definition = false := by
      rw [← Bool.not_eq_true, PlaybookProject.sensitive_iff]
      exact plain
    have isPublic : (name, value) ∈
        (PlaybookProject.resultOf (Json.sorted properties) values).publicValues :=
      accepted.mem_public.mpr ⟨definition, there, unmarked, given⟩
    exact none name sensitive (List.mem_map_of_mem isPublic)
  · intro exposes name sensitive isPublic
    obtain ⟨⟨_, value⟩, member, rfl⟩ := List.mem_map.mp isPublic
    obtain ⟨definition, there, unmarked, given⟩ := accepted.mem_public.mp member
    refine exposes ⟨properties, _, definition, accepted.found, there, sensitive, ?_, ?_⟩
    · rw [← Bool.not_eq_true, PlaybookProject.sensitive_iff] at unmarked
      exact unmarked
    · by_contra neither
      obtain ⟨missing, noDefault⟩ := not_or.mp neither
      have absent := PlaybookProject.given_eq_none.mpr
        ⟨missing, Option.not_isSome_iff_eq_none.mp noDefault⟩
      cases absent.symm.trans given

/-! ## The condition -/

/-- The parameters of a run of a revision are safe to record. -/
def SafeFor (revision : PlaybookRevision) (values : Members) : Prop :=
  match revision.revisionFormat with
  | .project => ∀ schema, schemaDict revision.parameterSchema = .ok schema →
      ¬ Exposes schema values
  | .legacySingleYaml => NothingMissed values

/-- The variables of a request are safe to record: no key is missed where they are refused by
their names, and no parameter with a sensitive name is public where a schema takes them apart. -/
def Guarded (world : RunWorld) : RunAct → Prop
  | .create (.playbook _ (.mount _) supplied _ _ _) _ => NothingMissed supplied.members
  | .create (.playbook _ (.database playbookId) supplied _ _ _) _ =>
      ∀ document, document? world.playbooks.db.state playbookId = some document →
        SafeFor document.2 supplied.members
  | .retry request _ =>
      ∀ source revision stored, findRun world.runs request.runId = some source →
        source.spec.pinned? world.playbooks.db.state = some revision →
          revision.revisionFormat = .project →
            rawPublic source.spec.operationSpec = .ok stored →
              SafeFor revision (Json.merge stored request.supplied)
  | _ => True

/-- No run of the world has a value under a sensitive name stored. -/
def RunWorld.NoneStored (world : RunWorld) : Prop :=
  ∀ run ∈ world.runs, NoneInClear run.spec.operationSpec

section Steps

variable {settings : RunSettings} {world next : RunWorld}

/-! ## One request -/

variable {request : CreateRequest} {operation : ResolvedOperation} {act : RunAct}

/-- The operation that a creation makes of a revision. -/
theorem noneInClear_of_revision {store : PlaybookStore} {playbookId : Uuid}
    (asked : request.databasePlaybookId = some playbookId)
    (done : resolveOperation store request = .ok operation) :
    NoneInClear operation.operationSpec ↔
      ∀ document, document? store playbookId = some document →
        SafeFor document.2 request.playbookParameters := by
  unfold resolveOperation at done
  rw [asked] at done
  obtain ⟨document, isDocument, rest⟩ := bind_eq_ok.mp done
  obtain ⟨-, -, rest⟩ := bind_eq_ok.mp rest
  obtain ⟨pinned, -, rest⟩ := bind_eq_ok.mp rest
  have only : (∀ document, document? store playbookId = some document →
      SafeFor document.2 request.playbookParameters) ↔
        SafeFor document.2 request.playbookParameters := by
    rw [orRaise_eq_ok.mp isDocument]
    simp
  rw [only]
  split at rest
  · rename_i format
    obtain ⟨result, isResult, rest⟩ := bind_eq_ok.mp rest
    obtain ⟨-, -, rest⟩ := bind_eq_ok.mp rest
    obtain rfl := Except.ok.inj rest
    obtain ⟨schema, dict, -⟩ := bind_eq_ok.mp isResult
    rw [noneInClear_recorded ((validated_eq_ok dict).mp isResult) pinned, SafeFor, format, dict]
    simp
  · rename_i format
    obtain ⟨-, -, rest⟩ := bind_eq_ok.mp rest
    obtain ⟨done, accepted, rest⟩ := bind_eq_ok.mp rest
    obtain rfl := Except.ok.inj rest
    have found : (Json.set pinned (text "extraVars") (.obj request.playbookParameters)).lookup
        (text "extraVars") = some (.obj request.playbookParameters) := by
      rw [Json.lookup_set, if_pos rfl]
    rw [noneInClear_iff found, nothingMissed_of_accepted accepted, SafeFor, format]

/-- An operation without a playbook of the database is stored as it came. -/
theorem operationSpec_of_resolved {store : PlaybookStore}
    (unasked : request.databasePlaybookId = none)
    (done : resolveOperation store request = .ok operation) :
    operation.operationSpec = request.operationSpec := by
  unfold resolveOperation at done
  rw [unasked] at done
  exact congrArg ResolvedOperation.operationSpec (Except.ok.inj done).symm

/-- **The operation of a new run** has nothing in clear, just when the request is guarded. -/
theorem noneInClear_of_call {call : CreateCall} {answers : Answers}
    (asked : call.request settings = .ok request)
    (done : resolveOperation world.playbooks.db.state request = .ok operation) :
    NoneInClear operation.operationSpec ↔ Guarded world (.create call answers) := by
  cases call with
  | command base mode commandLine become shellConfirmed =>
      obtain ⟨-, -, rest⟩ := bind_eq_ok.mp asked
      obtain ⟨-, -, rest⟩ := bind_eq_ok.mp rest
      obtain ⟨-, -, rest⟩ := bind_eq_ok.mp rest
      obtain ⟨-, -, rest⟩ := bind_eq_ok.mp rest
      obtain rfl := Except.ok.inj rest
      rw [operationSpec_of_resolved rfl done]
      exact iff_of_true (noneInClear_of_none rfl) trivial
  | ping base hostId =>
      obtain rfl := Except.ok.inj asked
      rw [operationSpec_of_resolved rfl done]
      exact iff_of_true (noneInClear_of_none rfl) trivial
  | playbook base reference supplied checkMode tags skipTags =>
      obtain ⟨-, -, rest⟩ := bind_eq_ok.mp asked
      obtain ⟨-, -, rest⟩ := bind_eq_ok.mp rest
      cases reference with
      | database playbookId =>
          obtain rfl := Except.ok.inj rest
          exact noneInClear_of_revision rfl done
      | mount found =>
          obtain ⟨mounted, -, rest⟩ := bind_eq_ok.mp rest
          obtain ⟨-, -, rest⟩ := bind_eq_ok.mp rest
          obtain ⟨_, accepted, rest⟩ := bind_eq_ok.mp rest
          obtain rfl := Except.ok.inj rest
          rw [operationSpec_of_resolved rfl done]
          exact (noneInClear_iff rfl).trans (nothingMissed_of_accepted accepted)

/-- **The operation of a retry** has nothing in clear, just when the request is guarded: it is
copied, or validated again. -/
theorem noneInClear_of_added {request : RetryRequest} {answers : Answers}
    {source run : StoredRun} {operation : Members × List (Text × Text)}
    (added : Added world.playbooks.db.state world.runs request source run operation)
    (made : Made world.playbooks.db.state source.spec)
    (before : NoneInClear source.spec.operationSpec) :
    NoneInClear run.spec.operationSpec ↔ Guarded world (.retry request answers) := by
  obtain ⟨names, -, remade⟩ := added.remade
  obtain ⟨print, rfl⟩ := added.isNew
  show NoneInClear operation.1 ↔ _
  cases made with
  | plain legacy nameless =>
      rw [retryOperation_plain legacy remade]
      refine iff_of_true before ?_
      intro other revision stored found pinned format
      obtain rfl := Option.some.inj (added.found.symm.trans found)
      rcases legacy with unpinned | ⟨legacy, pinned', single⟩
      · cases (unpinned.pinned_eq_none _).symm.trans pinned
      · obtain rfl := Option.some.inj (pinned.symm.trans pinned')
        cases single.symm.trans format
  | project revision schema values result pinned format dict distinct returned records =>
      obtain ⟨result', returned', same⟩ := retryOperation_project pinned format dict records remade
      rw [same, noneInClear_recorded returned']
      have safe : SafeFor revision (Json.merge result.publicValues request.supplied) ↔
          ¬ Exposes schema (Json.merge result.publicValues request.supplied) := by
        rw [SafeFor, format, dict]
        simp
      rw [← safe]
      constructor
      · intro isSafe other revision' stored found pinned' _ isStored
        obtain rfl := Option.some.inj (added.found.symm.trans found)
        obtain rfl := Option.some.inj (pinned.symm.trans pinned')
        obtain rfl := Except.ok.inj (records.rawPublic.symm.trans isStored)
        exact isSafe
      · exact fun guarded =>
          guarded source revision _ added.found pinned format records.rawPublic

/-! ## One step -/

/-- What a step does to the specifications: they stay as they are, or one is added, with nothing
in clear just when the step is guarded. -/
inductive Specs (world : RunWorld) (act : RunAct) : List StoredRun → Prop where
  | kept {runs : List StoredRun} (sameLength : runs.length = world.runs.length)
      (old : ∀ run ∈ runs, ∃ row ∈ world.runs, run.spec = row.spec) : Specs world act runs
  | added (run : StoredRun) (iff : NoneInClear run.spec.operationSpec ↔ Guarded world act) :
      Specs world act (world.runs ++ [run])

theorem Specs.refl (world : RunWorld) (act : RunAct) : Specs world act world.runs :=
  .kept rfl fun run member => ⟨run, member, rfl⟩

theorem specs_of_answered {answer : Except RunError (StoredRun × Bool × List StoredRun)}
    (specs : ∀ stored created runs, answer = .ok (stored, created, runs) → Specs world act runs) :
    Specs world act (world.answered answer).runs := by
  cases answer with
  | error error => exact .refl world act
  | ok found => exact specs found.1 found.2.1 found.2.2 rfl

/-- **One step.** -/
theorem specs_of_step (all : AllMade settings world) (none : world.NoneStored)
    (step : (runSystem settings).step world act = some next) : Specs world act next.runs := by
  cases act with
  | onPlaybooks act =>
      obtain ⟨playbooks, -, rfl⟩ := Option.map_eq_some_iff.mp step
      exact .refl world _
  | create call answers =>
      obtain rfl := Option.some.inj step
      refine specs_of_answered fun stored created runs done => ?_
      obtain ⟨request, asked, rest⟩ := bind_eq_ok.mp done
      rcases create_adds rest with rfl | ⟨hosts, operation, print, isMade, rfl, -⟩
      · exact .refl world _
      · exact .added _ (noneInClear_of_call asked isMade)
  | retry request answers =>
      obtain rfl := Option.some.inj step
      refine specs_of_answered fun stored created runs done => ?_
      rcases retry_eq_ok done with ⟨-, rfl⟩ | ⟨-, rfl, source, operation, added⟩
      · exact .refl world _
      · have member := (mem_of_findRun added.found).1
        exact .added stored (noneInClear_of_added added (all.made source member)
          (none source member))
  | move runId status =>
      obtain rfl := Option.some.inj step
      refine .kept (List.length_map ..) fun run member => ?_
      obtain ⟨old, isOld, rfl⟩ := List.mem_map.mp member
      refine ⟨old, isOld, ?_⟩
      by_cases isIt : old.runId = runId
      · rw [if_pos isIt]
      · rw [if_neg isIt]

/-- A step that adds a run leaves nothing in clear, just when it is guarded. -/
theorem noneStored_step_iff (all : AllMade settings world)
    (none : world.NoneStored) (step : (runSystem settings).step world act = some next)
    (adds : world.runs.length < next.runs.length) : next.NoneStored ↔ Guarded world act := by
  have specs := specs_of_step all none step
  unfold RunWorld.NoneStored
  generalize next.runs = after at specs adds
  cases specs with
  | kept sameLength old => exact absurd sameLength (Nat.ne_of_gt adds)
  | added run iff =>
      rw [← iff, List.forall_mem_append, List.forall_mem_singleton]
      exact and_iff_right none

/-- A guarded step leaves nothing in clear. -/
theorem RunWorld.NoneStored.step (all : AllMade settings world)
    (none : world.NoneStored) (guarded : Guarded world act)
    (step : (runSystem settings).step world act = some next) : next.NoneStored := by
  have specs := specs_of_step all none step
  unfold RunWorld.NoneStored
  generalize next.runs = after at specs
  cases specs with
  | kept sameLength old =>
      intro run member
      obtain ⟨row, isRow, same⟩ := old run member
      rw [same]
      exact none row isRow
  | added run iff =>
      rw [List.forall_mem_append, List.forall_mem_singleton]
      exact ⟨none, iff.mpr guarded⟩

/-! ## Every run -/

/-- **What a run stores in clear.**  The two tests agree on a tree just when no key of it is
missed.  In every run whose requests are guarded no value under a sensitive name is ever stored
with the specification of an operation; and the first request that is not guarded and adds a run
stores one. -/
theorem noneStored_of_guarded (reached : ((runSystem settings).restrict Guarded).Reachable world) :
    (∀ values, TestsAgree values ↔ NothingMissed values) ∧ world.NoneStored ∧
      ∀ act next, (runSystem settings).step world act = some next →
        world.runs.length < next.runs.length → (next.NoneStored ↔ Guarded world act) := by
  have invariant : ((runSystem settings).restrict Guarded).Inductive fun world =>
      (runSystem settings).Reachable world ∧ world.NoneStored := by
    refine ⟨?_, ?_⟩
    · rintro world ⟨start, empty⟩
      refine ⟨.of_init ⟨start, empty⟩, fun run member => ?_⟩
      rw [empty] at member
      cases member
    · rintro world act next ⟨reached, none⟩ step
      obtain ⟨guarded, step⟩ := System.restrict_step.mp step
      exact ⟨reached.step step, none.step (made_of_reachable reached) guarded step⟩
  obtain ⟨reached', none⟩ := invariant.of_reachable reached
  exact ⟨fun _ => testsAgree_iff, none, fun act next step adds =>
    noneStored_step_iff (made_of_reachable reached') none step adds⟩

end Steps

/-! ## A password and a private key -/

/-- The schema of a project with a password, which is marked or not. -/
def vaultSchema (marked : Bool) : JsonDict where
  members := schemaWith [(text "properties", .obj [(text "password", .obj
    [(text "type", .str (text "string")), (text "x-ops-composer-sensitive", .bool marked)])])]
  keyed := by cases marked <;> decide

/-- A playbook with this schema. -/
def vaultCreated (marked : Bool) : List RunAct :=
  [.onPlaybooks (.onDb (.begin (.create 7 ⟨text "vault", [], true⟩ .project
      (.ok { siteProject with parameterSchema := some (.obj (vaultSchema marked).members) }) 1))),
    .onPlaybooks (.onDb (.clock 0 0)), .onPlaybooks (.onDb (.perform 0)),
    .onPlaybooks (.onDb (.perform 0)), .onPlaybooks (.onDb (.perform 0)),
    .onPlaybooks (.onDb (.commit 0))]

/-- A parameter whose name gives it away. -/
def passwordDict : JsonDict := ⟨[(text "password", .str (text "hunter2"))], by decide⟩

/-- A run of the playbook with a password. -/
def vaultRun : RunAct :=
  .create (.playbook ⟨10, 7, text "key-10-1", ⟨.all, [], none⟩, 60, 1⟩ (.database 1) passwordDict
    false [] []) webAnswers

/-- A private key under a name that is not refused. -/
def deploymentDict : JsonDict :=
  ⟨[(text "privateKey", .str (text "-----BEGIN KEY-----"))], by decide⟩

/-- A run of a mounted playbook with a private key. -/
def mountedRun : RunAct :=
  .create (.playbook ⟨11, 7, text "key-11-1", ⟨.all, [], none⟩, 60, 1⟩
    (.mount (some (text "site.yml", text "0f"))) deploymentDict false [] []) webAnswers

/-- The names of the variables that the runs of a world have stored. -/
def RunWorld.storedNames (world : RunWorld) : List (List Text) :=
  world.runs.map StoredRun.publicNames

theorem not_noneStored_of_names {world : RunWorld} {names : List Text} {name : Text}
    (stored : names ∈ world.storedNames) (member : name ∈ names)
    (sensitive : isSensitiveKey name = true) : ¬ world.NoneStored := by
  intro none
  obtain ⟨run, isRun, rfl⟩ := List.mem_map.mp stored
  unfold StoredRun.publicNames at member
  split at member
  · rename_i values found
    exact none run isRun name sensitive ⟨values, found, .here member⟩
  · cases member

/-- The schema has properties, and all of them are marked. -/
def marksAll : Json → Bool
  | .obj (member :: members) =>
      match (member :: members).lookup (text "properties") with
      | some (.obj properties) => properties.all fun property =>
          match property.2 with
          | .obj definition => PlaybookProject.sensitive definition
          | _ => false
      | _ => false
  | _ => false

/-- Where every parameter is marked, none is exposed. -/
theorem not_exposes_of_marksAll {parameterSchema : Json} {schema : JsonDict}
    (marks : marksAll parameterSchema = true) (dict : schemaDict parameterSchema = .ok schema)
    (values : Members) : ¬ Exposes schema values := by
  unfold marksAll at marks
  split at marks
  · rename_i member members
    rw [schemaDict] at dict
    split at dict
    · obtain rfl := Except.ok.inj dict
      rintro ⟨properties, name, definition, declares, there, -, plain, -⟩
      have found : (member :: members).lookup (text "properties") = some (.obj properties) :=
        declares
      rw [found] at marks
      exact plain (PlaybookProject.sensitive_iff.mp (List.all_eq_true.mp marks _ there))
    · cases dict
  · cases marks

/-- The variables with the private key are not safe. -/
theorem not_nothingMissed_deployment : ¬ NothingMissed deploymentDict.members := by
  have accepted : validateExtraVars deploymentDict.members = .ok () := rfl
  rw [← nothingMissed_of_accepted accepted]
  exact fun none => none (text "privateKey") (by decide) (.here (by decide))

/-- The playbook is a project whose parameters are all marked. -/
def RunWorld.marked (world : RunWorld) : Bool :=
  (document? world.playbooks.db.state 1).all fun document =>
    decide (document.2.revisionFormat = .project) && marksAll document.2.parameterSchema

theorem guarded_of_marked {world : RunWorld} (marked : world.marked = true) :
    Guarded world vaultRun := by
  intro document found
  rw [RunWorld.marked, found] at marked
  obtain ⟨format, marks⟩ := Bool.and_eq_true_iff.mp marked
  rw [SafeFor, of_decide_eq_true format]
  exact fun schema dict => not_exposes_of_marksAll marks dict _

/-- What a run of the playbook and one of the mounted playbook after it come to. -/
def vaultThenMounted (before : RunWorld) : Option (RunWorld × RunWorld) := do
  let world ← (runSystem deploySettings).step before vaultRun
  let next ← (runSystem deploySettings).step world mountedRun
  return (world, next)

/-- A password that is marked is not stored; the private key after it is. -/
theorem noneStored_of_guarded_vault : ∃ world next,
    (runSystem deploySettings).exec noRuns (vaultCreated true ++ [vaultRun]) = some world ∧
      (runSystem deploySettings).step world mountedRun = some next ∧
        world.runs.length = 1 ∧ next.runs.length = 2 ∧
          world.NoneStored ∧ ¬ next.NoneStored := by
  have checked : ((runSystem deploySettings).exec noRuns (vaultCreated true)).any
      (fun before => before.marked && (vaultThenMounted before).any fun (world, next) =>
        world.runs.length == 1 && next.runs.length == 2) = true := by
    decide +kernel
  obtain ⟨before, created, rest⟩ := (Option.any_eq_true _ _).mp checked
  obtain ⟨marked, rest⟩ := Bool.and_eq_true_iff.mp rest
  obtain ⟨_, both, lengths⟩ := (Option.any_eq_true _ _).mp rest
  rw [vaultThenMounted] at both
  obtain ⟨world, ran, rest⟩ := Option.bind_eq_some_iff.mp both
  obtain ⟨next, mounted, same⟩ := Option.bind_eq_some_iff.mp rest
  obtain rfl := Option.some.inj same
  obtain ⟨one, two⟩ : world.runs.length = 1 ∧ next.runs.length = 2 := by simpa using lengths
  have guarded := guarded_of_marked marked
  have along : (runSystem deploySettings).Along Guarded noRuns (vaultCreated true) :=
    System.along_of_forall (by simp [vaultCreated, Guarded]) noRuns
  have reached : ((runSystem deploySettings).restrict Guarded).Reachable world :=
    ⟨noRuns, ⟨⟨_, _, rfl, rfl⟩, rfl⟩, (System.leads_restrict_of_exec created along).tail
      (System.restrict_step.mpr ⟨guarded, ran⟩)⟩
  obtain ⟨-, none, exact'⟩ := noneStored_of_guarded reached
  have adds : world.runs.length < next.runs.length := by omega
  refine ⟨world, next, ?_, mounted, one, two, none, ?_⟩
  · rw [System.exec_append, created, Option.bind_some, System.exec, ran, Option.bind_some,
      System.exec]
  · exact fun stored => not_nothingMissed_deployment ((exact' _ _ mounted adds).mp stored)

/-- **Two secrets in clear**: a private key, whose name is missed, and a password, which the
schema has made public. -/
theorem noneStored_fails :
    (isSensitiveKey (text "privateKey") = true ∧
      Occurs (text "privateKey") (.obj deploymentDict.members) ∧
        validateExtraVars deploymentDict.members = .ok ()) ∧
    (∃ world, (runSystem deploySettings).exec noRuns [mountedRun] = some world ∧
      [text "privateKey"] ∈ world.storedNames ∧ ¬ world.NoneStored) ∧
    ∃ world, (runSystem deploySettings).exec noRuns (vaultCreated false ++ [vaultRun]) =
        some world ∧ [text "password"] ∈ world.storedNames ∧ ¬ world.NoneStored := by
  have mounted : ((runSystem deploySettings).exec noRuns [mountedRun]).any
      (fun world => decide ([text "privateKey"] ∈ world.storedNames)) = true := by
    decide +kernel
  have vault : ((runSystem deploySettings).exec noRuns (vaultCreated false ++ [vaultRun])).any
      (fun world => decide ([text "password"] ∈ world.storedNames)) = true := by
    decide +kernel
  refine ⟨⟨by decide, .here (by decide), rfl⟩, ?_, ?_⟩
  · obtain ⟨world, ran, stored⟩ := (Option.any_eq_true _ _).mp mounted
    have stored := of_decide_eq_true stored
    exact ⟨world, ran, stored, not_noneStored_of_names stored (List.mem_singleton_self _)
      (by decide)⟩
  · obtain ⟨world, ran, stored⟩ := (Option.any_eq_true _ _).mp vault
    have stored := of_decide_eq_true stored
    exact ⟨world, ran, stored, not_noneStored_of_names stored (List.mem_singleton_self _)
      (by decide)⟩

end OpsComposer.RunSpecs
