import OpsComposer.Playbooks.History
import OpsComposer.RunSpecs.Records

/-!
# What retries reproduce

In every run of the system the rows of runs keep their specification and their targets, whatever
is edited (`findRun_of_leads`), and the operation of every run has been made in one of the two
ways of `Made` (`made_of_reachable`): the revision that a run has pinned stays stored as it is.

So a retry of a retry equals the retry, and the first retry equals the run that is retried just
when no parameter of that one has got its value from a default of the schema
(`retries_reproduce_iff`).  Otherwise the default counts as a parameter that has been supplied by
name (`retries_reproduce_fails`).
-/

set_option autoImplicit false

namespace OpsComposer.RunSpecs

open Domain (Uuid RunKind RunStatus)
open Foundations Services Playbooks
open Services.PlaybookProject (bind_eq_ok JsonDict Members ValidatedParameters)

section Steps

variable {settings : RunSettings} {store : PlaybookStore} {runs runs' : List StoredRun}
  {world next later : RunWorld}

/-! ## One request -/

variable {answers : Answers} {created : Bool} {run source stored : StoredRun} {runId : Uuid}

/-- What persisting a run comes to: the run is there already, or it is added. -/
theorem persist_eq_ok (done : persist runs run answers = .ok (stored, created, runs')) :
    created = false ∧ runs' = runs ∨
      created = true ∧ stored = run ∧ runs' = runs ++ [run] ∧
        ∀ other ∈ runs, other.runId ≠ run.runId := by
  obtain ⟨found, isFound, rest⟩ := bind_eq_ok.mp done
  obtain ⟨-, -, rest⟩ := bind_eq_ok.mp rest
  obtain ⟨-, -, rest⟩ := bind_eq_ok.mp rest
  obtain rfl := Except.ok.inj rest
  unfold createOrGet at isFound
  split at isFound
  · obtain ⟨-, same⟩ := Prod.mk.inj (Except.ok.inj isFound)
    obtain ⟨rfl, rfl⟩ := Prod.mk.inj same
    exact .inl ⟨rfl, rfl⟩
  · obtain ⟨_, free, rest⟩ := bind_eq_ok.mp isFound
    obtain ⟨rfl, same⟩ := Prod.mk.inj (Except.ok.inj rest)
    obtain ⟨rfl, rfl⟩ := Prod.mk.inj same
    exact .inr ⟨rfl, rfl, rfl, require_eq_ok.mp free⟩

/-- A new run for the operation that has been resolved, or nothing. -/
theorem create_adds {request : CreateRequest}
    (done : create settings store runs request answers = .ok (stored, created, runs')) :
    runs' = runs ∨ ∃ hosts operation print, resolveOperation store request = .ok operation ∧
      runs' = runs ++ [newRun request hosts operation print] ∧
      ∀ other ∈ runs, other.runId ≠ request.runId := by
  obtain ⟨-, -, rest⟩ := bind_eq_ok.mp done
  obtain ⟨print, -, rest⟩ := bind_eq_ok.mp rest
  split at rest
  · obtain ⟨-, -, rest⟩ := bind_eq_ok.mp rest
    obtain ⟨-, same⟩ := Prod.mk.inj (Except.ok.inj rest)
    exact .inl (Prod.mk.inj same).2.symm
  · obtain ⟨hosts, -, rest⟩ := bind_eq_ok.mp rest
    obtain ⟨operation, isMade, rest⟩ := bind_eq_ok.mp rest
    rcases persist_eq_ok rest with ⟨-, same⟩ | ⟨-, -, added, free⟩
    · exact .inl same
    · exact .inr ⟨hosts, operation, print, isMade, added, free⟩

/-- A new run, or nothing. -/
theorem create_eq_ok {request : CreateRequest} (plain : Plain request)
    (done : create settings store runs request answers = .ok (stored, created, runs')) :
    runs' = runs ∨ ∃ run, Made store run.spec ∧ runs' = runs ++ [run] ∧
      ∀ other ∈ runs, other.runId ≠ run.runId := by
  rcases create_adds done with same | ⟨hosts, operation, print, isMade, added, free⟩
  · exact .inl same
  · exact .inr ⟨_, made_of_resolved plain isMade hosts print, added, free⟩

/-- What is known of a retry that has added a run. -/
structure Added (store : PlaybookStore) (runs : List StoredRun) (request : RetryRequest)
    (source run : StoredRun) (operation : Members × List (Text × Text)) : Prop where
  found : findRun runs request.runId = some source
  terminal : source.status.terminal = true
  remade : ∃ names, secretParameterNames source.spec.operationSpec = .ok names ∧
    retryOperation store source names request.supplied = .ok operation
  isNew : ∃ print, run = retriedRun source request operation.1 operation.2 print
  free : ∀ other ∈ runs, other.runId ≠ run.runId

theorem retry_eq_ok {request : RetryRequest}
    (done : retry settings store runs request answers = .ok (stored, created, runs')) :
    created = false ∧ runs' = runs ∨
      created = true ∧ runs' = runs ++ [stored] ∧
        ∃ source operation, Added store runs request source stored operation := by
  obtain ⟨-, -, rest⟩ := bind_eq_ok.mp done
  obtain ⟨source, found, rest⟩ := bind_eq_ok.mp rest
  obtain ⟨_, terminal, rest⟩ := bind_eq_ok.mp rest
  obtain ⟨-, -, rest⟩ := bind_eq_ok.mp rest
  obtain ⟨-, -, rest⟩ := bind_eq_ok.mp rest
  obtain ⟨names, isNames, rest⟩ := bind_eq_ok.mp rest
  obtain ⟨operation, isMade, rest⟩ := bind_eq_ok.mp rest
  obtain ⟨print, -, rest⟩ := bind_eq_ok.mp rest
  rcases persist_eq_ok rest with same | ⟨isNew, rfl, added, free⟩
  · exact .inl same
  · exact .inr ⟨isNew, added, source, operation, orRaise_eq_ok.mp found,
      require_eq_ok.mp terminal, ⟨names, isNames, isMade⟩, ⟨print, rfl⟩, free⟩

theorem Added.made {request : RetryRequest} {operation : Members × List (Text × Text)}
    (added : Added store runs request source run operation) (made : Made store source.spec) :
    Made store run.spec := by
  obtain ⟨names, -, isMade⟩ := added.remade
  obtain ⟨print, rfl⟩ := added.isNew
  exact retryOperation_made made isMade

/-! ## One step -/

/-- What a step does to the rows of runs. -/
inductive Rows (store : PlaybookStore) (runs : List StoredRun) : List StoredRun → Prop where
  | same : Rows store runs runs
  | added (run : StoredRun) (made : Made store run.spec)
      (free : ∀ other ∈ runs, other.runId ≠ run.runId) : Rows store runs (runs ++ [run])
  | moved (runId : Uuid) (status : RunStatus) : Rows store runs (runs.map fun run =>
      if run.runId = runId then { run with status := status } else run)

/-- The playbooks go on by one step, or stay. -/
def PlaybooksGoOn (settings : RunSettings) (world next : RunWorld) : Prop :=
  (playbookSystem settings.playbooks).Leads world.playbooks next.playbooks

theorem mem_of_findRun (found : findRun runs runId = some run) : run ∈ runs ∧ run.runId = runId :=
  ⟨List.mem_of_find?_eq_some found, by simpa using List.find?_some found⟩

theorem rows_of_answered {answer : Except RunError (StoredRun × Bool × List StoredRun)}
    (rows : ∀ stored created runs', answer = .ok (stored, created, runs') →
      Rows store world.runs runs') :
    Rows store world.runs (world.answered answer).runs ∧
      PlaybooksGoOn settings world (world.answered answer) := by
  cases answer with
  | error error => exact ⟨.same, .refl _⟩
  | ok found => exact ⟨rows found.1 found.2.1 found.2.2 rfl, .refl _⟩

/-- **One step.** -/
theorem rows_of_step {act : RunAct}
    (made : ∀ run ∈ world.runs, Made world.playbooks.db.state run.spec)
    (step : (runSystem settings).step world act = some next) :
    Rows world.playbooks.db.state world.runs next.runs ∧ PlaybooksGoOn settings world next := by
  cases act with
  | onPlaybooks act =>
      obtain ⟨playbooks, moved, rfl⟩ := Option.map_eq_some_iff.mp step
      exact ⟨.same, (System.Leads.refl _).tail moved⟩
  | create call answers =>
      obtain rfl := Option.some.inj step
      refine rows_of_answered fun stored created runs' done => ?_
      obtain ⟨request, asked, rest⟩ := bind_eq_ok.mp done
      rcases create_eq_ok (plain_of_call asked) rest with rfl | ⟨run, made, rfl, free⟩
      · exact .same
      · exact .added run made free
  | retry request answers =>
      obtain rfl := Option.some.inj step
      refine rows_of_answered fun stored created runs' done => ?_
      rcases retry_eq_ok done with ⟨-, rfl⟩ | ⟨-, rfl, source, operation, added⟩
      · exact .same
      · exact .added stored (added.made (made source (mem_of_findRun added.found).1)) added.free
  | move runId status =>
      obtain rfl := Option.some.inj step
      exact ⟨.moved runId status, .refl _⟩

/-- The revision that a run has pinned stays as it is. -/
theorem pinned_of_leads (reached : (playbookSystem settings.playbooks).Reachable world.playbooks)
    (goOn : PlaybooksGoOn settings world next) {spec : RunSpec} {revision : PlaybookRevision}
    (pinned : spec.pinned? world.playbooks.db.state = some revision) :
    spec.pinned? next.playbooks.db.state = some revision := by
  unfold RunSpec.pinned? at pinned ⊢
  split at pinned
  · exact ((revision_history reached goOn).immutable _ _ _ pinned).1
  · cases pinned

theorem Made.of_leads (reached : (playbookSystem settings.playbooks).Reachable world.playbooks)
    (goOn : PlaybooksGoOn settings world next) {spec : RunSpec}
    (made : Made world.playbooks.db.state spec) : Made next.playbooks.db.state spec := by
  cases made with
  | project revision schema values result pinned format dict distinct returned records =>
      exact .project revision schema values result (pinned_of_leads reached goOn pinned) format
        dict distinct returned records
  | plain legacy nameless =>
      refine .plain (legacy.imp_right ?_) nameless
      rintro ⟨revision, pinned, format⟩
      exact ⟨revision, pinned_of_leads reached goOn pinned, format⟩

/-! ## Every reachable state -/

/-- The playbooks are those of a run of their own, and every operation has been made. -/
structure AllMade (settings : RunSettings) (world : RunWorld) : Prop where
  reached : (playbookSystem settings.playbooks).Reachable world.playbooks
  made : ∀ run ∈ world.runs, Made world.playbooks.db.state run.spec

theorem AllMade.step {act : RunAct} (all : AllMade settings world)
    (step : (runSystem settings).step world act = some next) : AllMade settings next := by
  obtain ⟨rows, goOn⟩ := rows_of_step all.made step
  refine ⟨all.reached.leads goOn, fun run member => Made.of_leads all.reached goOn ?_⟩
  generalize next.runs = after at rows member
  cases rows with
  | same => exact all.made run member
  | added new made free =>
      rcases List.mem_append.mp member with old | isNew
      · exact all.made run old
      · exact List.mem_singleton.mp isNew ▸ made
  | moved runId status =>
      obtain ⟨old, isOld, rfl⟩ := List.mem_map.mp member
      have made := all.made old isOld
      by_cases isIt : old.runId = runId
      · rw [if_pos isIt]
        exact made
      · rw [if_neg isIt]
        exact made

/-- **Every operation** that is stored has been made in one of the two ways. -/
theorem made_of_reachable (reached : (runSystem settings).Reachable world) :
    AllMade settings world := by
  have invariant : (runSystem settings).Inductive (AllMade settings) := by
    refine ⟨?_, fun world act next all step => all.step step⟩
    rintro world ⟨start, none⟩
    refine ⟨.of_init start, fun run member => ?_⟩
    rw [none] at member
    cases member
  exact invariant.of_reachable reached

/-- One run has the specification and the targets of another one. -/
structure Reproduces (source run : StoredRun) : Prop where
  spec : run.spec = source.spec
  targets : run.targets = source.targets

theorem Reproduces.refl (run : StoredRun) : Reproduces run run := ⟨rfl, rfl⟩

theorem Reproduces.trans {first second third : StoredRun} (before : Reproduces first second)
    (after : Reproduces second third) : Reproduces first third :=
  ⟨after.spec.trans before.spec, after.targets.trans before.targets⟩

/-- No step changes what a run specifies. -/
theorem findRun_of_rows (rows : Rows store runs runs') (found : findRun runs runId = some run) :
    ∃ run', findRun runs' runId = some run' ∧ Reproduces run run' := by
  cases rows with
  | same => exact ⟨run, found, .refl run⟩
  | added new made free =>
      refine ⟨run, ?_, .refl run⟩
      rw [findRun, List.find?_append]
      exact (congrArg (Option.or · _) found).trans rfl
  | moved other status =>
      refine ⟨if run.runId = other then { run with status := status } else run, ?_, ?_⟩
      · have sameKey : ((fun run : StoredRun => decide (run.runId = runId)) ∘ fun run =>
            if run.runId = other then { run with status := status } else run) =
            fun run => decide (run.runId = runId) := by
          funext run
          by_cases isIt : run.runId = other
          · simp [isIt]
          · simp [isIt]
        rw [findRun, List.find?_map, sameKey]
        exact congrArg (Option.map _) found
      · by_cases isIt : run.runId = other
        · rw [if_pos isIt]
          exact ⟨rfl, rfl⟩
        · rw [if_neg isIt]
          exact .refl run

/-- **What a run specifies stays**, whatever is edited. -/
theorem findRun_of_leads (reached : (runSystem settings).Reachable world)
    (leads : (runSystem settings).Leads world later) (found : findRun world.runs runId = some run) :
    ∃ run', findRun later.runs runId = some run' ∧ Reproduces run run' := by
  obtain ⟨actions, trace⟩ := leads
  induction trace with
  | refl => exact ⟨run, found, .refl run⟩
  | tail before step ih =>
      obtain ⟨run', found', same⟩ := ih
      have all := made_of_reachable (reached.leads ⟨_, before⟩)
      obtain ⟨run'', found'', same'⟩ := findRun_of_rows (rows_of_step all.made step).1 found'
      exact ⟨run'', found'', same.trans same'⟩

/-! ## Retries -/

/-- A retry of a run with its secret parameters adds a run. -/
def Retried (settings : RunSettings) (world : RunWorld) (source : StoredRun) (next : RunWorld)
    (run : StoredRun) : Prop :=
  ∃ (request : RetryRequest) (answers : Answers) (runs : List StoredRun),
    request.runId = source.runId ∧ OnlySecrets source.spec.operationSpec request.supplied ∧
      retry settings world.playbooks.db.state world.runs request answers =
        .ok (run, true, runs) ∧
      next = { world with runs := runs }

/-- Retries of a run, each of the run that the one before has added, with any history before
each of them. -/
inductive Retries (settings : RunSettings) (world : RunWorld) (source : StoredRun) :
    RunWorld → StoredRun → Prop where
  | first {before next : RunWorld} {run : StoredRun}
      (leads : (runSystem settings).Leads world before)
      (retried : Retried settings before source next run) :
      Retries settings world source next run
  | again {middle before next : RunWorld} {run run' : StoredRun}
      (earlier : Retries settings world source middle run)
      (leads : (runSystem settings).Leads middle before)
      (retried : Retried settings before run next run') :
      Retries settings world source next run'

/-- **One retry**: the operation has no default in it, and the whole specification is the one
of the source just when that one has none. -/
theorem spec_of_retried (reached : (runSystem settings).Reachable world)
    (retried : Retried settings world source next run)
    (stored : ∃ row, findRun world.runs source.runId = some row ∧ Reproduces source row) :
    (runSystem settings).Reachable next ∧ findRun next.runs run.runId = some run ∧
      Explicit run.spec.operationSpec ∧
      (Reproduces source run ↔ Explicit source.spec.operationSpec) := by
  obtain ⟨request, answers, runs, isSource, only, done, rfl⟩ := retried
  obtain ⟨row, found, same⟩ := stored
  have step : (runSystem settings).step world (.retry request answers) =
      some { world with runs := runs } := by
    show some (world.answered (retry _ _ _ _ _)) = _
    rw [done]
    rfl
  rcases retry_eq_ok done with ⟨none, -⟩ | ⟨-, rfl, source', operation, added⟩
  · cases none
  · obtain rfl : row = source' := by
      rw [← isSource] at found
      exact Option.some.inj (found.symm.trans added.found)
    obtain ⟨names, isNames, isMade⟩ := added.remade
    obtain ⟨print, isRun⟩ := added.isNew
    have made := (made_of_reachable reached).made row (mem_of_findRun added.found).1
    have distinct : (Json.keys request.supplied).Nodup := by
      unfold RetryRequest.supplied
      cases request.parameters with
      | none => exact List.nodup_nil
      | some dict => exact (Json.keyed_obj.mp dict.keyed).1
    rw [← same.spec] at only
    obtain ⟨explicit, keeps⟩ := retryOperation_explicit made distinct only isMade
    refine ⟨reached.step step, ?_, isRun ▸ explicit, ?_⟩
    · have none : findRun world.runs run.runId = none :=
        List.find?_eq_none.mpr fun other member => by simpa using added.free other member
      rw [findRun, List.find?_append]
      rw [findRun] at none
      rw [none]
      simp
    · rw [← same.spec, ← keeps, isRun]
      constructor
      · exact fun reproduces =>
          congrArg RunSpec.operationSpec (reproduces.spec.trans same.spec.symm)
      · intro equal
        refine ⟨?_, same.targets⟩
        show { row.spec with operationSpec := operation.1 } = source.spec
        rw [equal]
        exact same.spec

/-- What is known after any number of retries. -/
theorem spec_of_retries (reached : (runSystem settings).Reachable world)
    (stored : findRun world.runs source.runId = some source)
    (retries : Retries settings world source later run) :
    (runSystem settings).Reachable later ∧ findRun later.runs run.runId = some run ∧
      Explicit run.spec.operationSpec ∧
      (Reproduces source run ↔ Explicit source.spec.operationSpec) := by
  induction retries with
  | first leads retried =>
      exact spec_of_retried (reached.leads leads) retried (findRun_of_leads reached leads stored)
  | again earlier leads retried ih =>
      obtain ⟨reached', stored', explicit, keeps⟩ := ih
      obtain ⟨last, found, explicit', keeps'⟩ := spec_of_retried (reached'.leads leads) retried
        (findRun_of_leads reached' leads stored')
      have again := keeps'.mpr explicit
      refine ⟨last, found, explicit', Iff.trans ⟨fun same => ?_, fun same => ?_⟩ keeps⟩
      · exact ⟨again.spec.symm.trans same.spec, again.targets.symm.trans same.targets⟩
      · exact same.trans again

/-- **Retries reproduce a run** just when no parameter of it has got its value from a default of
the schema: after any number of them, with any edits in between, the last one has the
specification and the targets of the run. -/
theorem retries_reproduce_iff {source run : StoredRun}
    (reached : (runSystem settings).Reachable world)
    (stored : findRun world.runs source.runId = some source)
    (retries : Retries settings world source later run) :
    Reproduces source run ↔ Explicit source.spec.operationSpec :=
  (spec_of_retries reached stored retries).2.2.2

end Steps

/-! ## A playbook with a default -/

/-- The names of the parameters that a run has recorded. -/
def StoredRun.parameterNames (run : StoredRun) : List Text :=
  match run.spec.operationSpec.lookup (text "parameterNames") with
  | some (.arr items) => items.filterMap PlaybookProject.string?
  | _ => []

/-- The names of the public parameters of a run. -/
def StoredRun.publicNames (run : StoredRun) : List Text :=
  match run.spec.operationSpec.lookup (text "extraVars") with
  | some (.obj values) => Json.keys values
  | _ => []

theorem explicit_of_names {run : StoredRun}
    (all : ∀ name ∈ run.publicNames, name ∈ run.parameterNames) :
    Explicit run.spec.operationSpec := by
  intro names values found found' name member
  have isPublic : run.publicNames = Json.keys values := by rw [StoredRun.publicNames, found']
  have isNamed : run.parameterNames = names := by
    rw [StoredRun.parameterNames, found]
    exact PlaybookProject.filterMap_string? names
  rw [← isNamed]
  exact all name (isPublic ▸ member)

theorem parameterNames_of_reproduces {source run : StoredRun} (same : Reproduces source run) :
    run.parameterNames = source.parameterNames := by
  rw [StoredRun.parameterNames, same.spec]
  rfl

/-- Settings with functions that are easy to evaluate. -/
def deploySettings : RunSettings where
  sha256 digest := digest
  hmac pepper digest := pepper ++ digest
  playbooks := ⟨true, id⟩

/-- A playbook with the schema `deploySchema`, in a project of one file. -/
def deployCreated : List RunAct :=
  [.onPlaybooks (.onDb (.begin (.create 7 ⟨text "deploy", [], true⟩ .project
      (.ok { siteProject with parameterSchema := some (.obj PlaybookProject.deploySchema.members) })
      1))),
    .onPlaybooks (.onDb (.clock 0 0)), .onPlaybooks (.onDb (.perform 0)),
    .onPlaybooks (.onDb (.perform 0)), .onPlaybooks (.onDb (.perform 0)),
    .onPlaybooks (.onDb (.commit 0))]

/-- One host with its credential. -/
def webHost : ResolvedHost where
  hostId := 5
  name := text "web"
  address := text "10.0.0.5"
  sshPort := 22
  credentialId := 6
  credentialVersion := 1
  credentialUsername := text "ops"

/-- What the queries of a run on that host answer. -/
def webAnswers : Answers where
  hosts := [webHost]
  pepper := some [1]

/-- One parameter. -/
def tokenDict : JsonDict := ⟨[(text "token", .str (text "t"))], by decide⟩

/-- That parameter and one that has a default. -/
def namedDict : JsonDict :=
  ⟨[(text "token", .str (text "t")), (text "name", .str (text "db"))], by decide⟩

/-- A run of the playbook ends. -/
def deployRan (supplied : JsonDict) : List RunAct :=
  deployCreated ++
    [.create (.playbook ⟨10, 7, text "key-10-1", ⟨.all, [], none⟩, 60, 1⟩ (.database 1) supplied
        false [] []) webAnswers,
      .move 10 .failed]

/-- A retry that is given the token again. -/
def deployRetry : RetryRequest where
  runId := 10
  requestedBy := 7
  idempotencyKey := text "key-11-1"
  parameters := some tokenDict
  newRunId := 11

/-- No run has been created. -/
def noRuns : RunWorld := ⟨{ clock := 0, db := { state := Table.empty } }, []⟩

/-- The run that has ended in a world, and what its retry makes of it. -/
def retriedIn (world : RunWorld) : Option (StoredRun × StoredRun × Bool) :=
  (findRun world.runs 10).bind fun source =>
    match retry deploySettings world.playbooks.db.state world.runs deployRetry webAnswers with
    | .ok (run, created, _) => some (source, run, created)
    | .error _ => none

/-- A run with the parameters, its retry and whether that was created. -/
def retriedDeploy (supplied : JsonDict) : Option (StoredRun × StoredRun × Bool) :=
  ((runSystem deploySettings).exec noRuns (deployRan supplied)).bind retriedIn

/-- The secret parameters that a run has recorded. -/
def StoredRun.secretNames? (run : StoredRun) : Option (List Text) :=
  (secretParameterNames run.spec.operationSpec).toOption

/-- A run that has ended, and its retry. -/
structure DeployRetried (supplied : JsonDict) (world : RunWorld) (source : StoredRun)
    (later : RunWorld) (run : StoredRun) : Prop where
  ran : (runSystem deploySettings).exec noRuns (deployRan supplied) = some world
  reached : (runSystem deploySettings).Reachable world
  stored : findRun world.runs source.runId = some source
  terminal : source.status.terminal = true
  retries : Retries deploySettings world source later run

theorem deployRetried {supplied : JsonDict} {source run : StoredRun}
    (found : retriedDeploy supplied = some (source, run, true))
    (secrets : source.secretNames? = some [text "token"]) :
    ∃ world later, DeployRetried supplied world source later run := by
  rw [retriedDeploy] at found
  obtain ⟨world, ran, rest⟩ := Option.bind_eq_some_iff.mp found
  obtain ⟨row, isRow, rest⟩ := Option.bind_eq_some_iff.mp rest
  split at rest
  · rename_i retried created runs done
    obtain ⟨rfl, same⟩ := Prod.mk.inj (Option.some.inj rest)
    obtain ⟨rfl, rfl⟩ := Prod.mk.inj same
    have isTen : row.runId = 10 := (mem_of_findRun isRow).2
    have only : OnlySecrets row.spec.operationSpec deployRetry.supplied := by
      intro names isNames name
      rw [StoredRun.secretNames?, isNames] at secrets
      obtain rfl := Option.some.inj secrets
      exact Iff.rfl
    rcases retry_eq_ok done with ⟨none, -⟩ | ⟨-, rfl, source, operation, added⟩
    · cases none
    · obtain rfl : row = source := Option.some.inj (isRow.symm.trans added.found)
      exact ⟨world, _, ran, ⟨noRuns, ⟨⟨_, _, rfl, rfl⟩, rfl⟩, System.leads_of_exec ran⟩,
        isTen ▸ isRow, added.terminal,
        .first (.refl world) ⟨deployRetry, webAnswers, _, isTen.symm, only, done, rfl⟩⟩
  · cases rest

/-- What the retry of the run with these parameters has to come to. -/
def deployCheck (supplied : JsonDict) (before after : List Text) : Bool :=
  (retriedDeploy supplied).any fun (source, run, created) =>
    created && decide (source.secretNames? = some [text "token"]) &&
      decide (source.publicNames = [text "name"]) && decide (source.parameterNames = before) &&
        decide (run.parameterNames = after)

theorem deployRetried_of_check {supplied : JsonDict} {before after : List Text}
    (checked : deployCheck supplied before after = true) :
    ∃ world source later run, DeployRetried supplied world source later run ∧
      source.publicNames = [text "name"] ∧ source.parameterNames = before ∧
        run.parameterNames = after := by
  obtain ⟨⟨source, run, created⟩, found, all⟩ := (Option.any_eq_true _ _).mp checked
  simp only [Bool.and_eq_true, decide_eq_true_eq] at all
  obtain ⟨⟨⟨⟨rfl, secrets⟩, isPublic⟩, isBefore⟩, isAfter⟩ := all
  obtain ⟨world, later, retried⟩ := deployRetried found secrets
  exact ⟨world, source, later, run, retried, isPublic, isBefore, isAfter⟩

/-- **A retry that differs from its run**: the name was not supplied and has the default of the
schema; the retry has recorded that it was supplied. -/
theorem retries_reproduce_fails :
    ∃ world source later run, DeployRetried tokenDict world source later run ∧
      source.parameterNames = [text "token"] ∧
        run.parameterNames = [text "name", text "token"] ∧ ¬ Reproduces source run := by
  have checked : deployCheck tokenDict [text "token"] [text "name", text "token"] = true := by
    decide +kernel
  obtain ⟨world, source, later, run, retried, -, before, after⟩ := deployRetried_of_check checked
  refine ⟨world, source, later, run, retried, before, after, fun same => ?_⟩
  have names := parameterNames_of_reproduces same
  rw [before, after] at names
  exact absurd names (by decide)

theorem retries_reproduce_named :
    ∃ world source later run, DeployRetried namedDict world source later run ∧
      source.parameterNames = [text "name", text "token"] ∧ Reproduces source run := by
  have checked : deployCheck namedDict [text "name", text "token"]
      [text "name", text "token"] = true := by
    decide +kernel
  obtain ⟨world, source, later, run, retried, isPublic, before, -⟩ :=
    deployRetried_of_check checked
  refine ⟨world, source, later, run, retried, before, ?_⟩
  refine (retries_reproduce_iff retried.reached retried.stored retried.retries).mpr ?_
  refine explicit_of_names fun name member => ?_
  rw [isPublic] at member
  rw [before]
  exact List.mem_cons.mpr (.inl (List.mem_singleton.mp member))

end OpsComposer.RunSpecs
