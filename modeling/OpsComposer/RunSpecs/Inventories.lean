import OpsComposer.RunSpecs.Reproduction
import OpsComposer.Services.Assets
import OpsComposer.Services.RuntimeInventory

/-!
# What a host is told

The loop over the targets changes the variables of one host after the other
(`prepared_of_run`), and the cache has in it what the credential service has answered
(`Truthful`).  In the run of a request, or of a retry, every target has a host of its own in the
snapshot (`agrees_of_reachable`).

So a host has the variables of the snapshot, but for those of the login and of the escalation,
and these follow from its own revision alone (`runtime_inventory_isolated`).
-/

set_option autoImplicit false

namespace OpsComposer.RunSpecs

open Domain (Uuid RunKind RunStatus)
open Foundations Services Playbooks
open Services.PlaybookProject (bind_eq_ok JsonDict Members)

/-! ## One host -/

/-- The variables that the secret of a host and the escalation have a say in. -/
def secretVariables : List Text := text "ansible_password" :: becomeVariables

section Host

variable {secret : Secret} {vars withLogin : Members} {mode : Escalation} {name : Text}

theorem lookup_withBecomePassword (apart : name ≠ text "ansible_become_password") :
    (withBecomePassword secret vars).lookup name = vars.lookup name := by
  unfold withBecomePassword
  split
  · rw [Json.lookup_set, if_neg apart]
  · rfl

theorem lookup_foldl_pop {names : List Text} :
    (names.foldl Json.pop vars).lookup name =
      if name ∈ names then none else vars.lookup name := by
  induction names generalizing vars with
  | nil => simp
  | cons first names ih =>
      rw [List.foldl_cons, ih, Json.lookup_pop]
      by_cases here : name = first
      · simp [here]
      · simp [here]

/-- The escalation leaves every other variable as it is. -/
theorem lookup_escalated (apart : name ∉ becomeVariables) :
    (escalated secret vars mode).lookup name = vars.lookup name := by
  have others : name ≠ text "ansible_become" ∧ name ≠ text "ansible_become_method" ∧
      name ≠ text "ansible_become_user" ∧ name ≠ text "ansible_become_password" := by
    simpa [becomeVariables] using apart
  obtain ⟨become, method, user, password⟩ := others
  cases mode with
  | disabled => rw [escalated, lookup_foldl_pop, if_neg apart]
  | enabled =>
      rw [escalated, lookup_withBecomePassword password, Json.lookup_setDefault user,
        Json.lookup_setDefault method, Json.lookup_set, if_neg become]
  | credentialDefault =>
      rw [escalated]
      split
      · exact lookup_withBecomePassword password
      · rfl

theorem lookup_withPassword (done : withPassword secret vars = .ok withLogin)
    (apart : name ≠ text "ansible_password") : withLogin.lookup name = vars.lookup name := by
  unfold withPassword at done
  split at done
  · obtain rfl := Except.ok.inj done
    rw [Json.lookup_set, if_neg apart]
  · split at done
    · exact Except.ok.inj done ▸ rfl
    · cases done

end Host

/-! ## One target -/

section Loop

variable {decrypt : Text → Int → Except InventoryError Secret} {run : RunSpec}

/-- What a target comes to: its host has these variables in the end. -/
structure Served (decrypt : Text → Int → Except InventoryError Secret) (mode : Escalation)
    (hosts target : Members) (name : Text) (served : Members) : Prop where
  named : targetName? target = some name
  rewritten : ∃ key secret vars withLogin, cacheKey? target = some key ∧
    decrypt key.1 key.2 = .ok secret ∧ hosts.lookup name = some (.obj vars) ∧
      withPassword secret vars = .ok withLogin ∧ served = escalated secret withLogin mode

/-- The cache has in it what the credential service answers. -/
def Truthful (decrypt : Text → Int → Except InventoryError Secret)
    (revisions : List (RevisionKey × Secret)) : Prop :=
  ∀ key secret, revisions.lookup key = some secret → decrypt key.1 key.2 = .ok secret

variable {revisions : List (RevisionKey × Secret)} {target : Members} {state : Preparing}
  {key : RevisionKey} {secret : Secret} {name : Text}

theorem lookup_revision {entry : RevisionKey × Secret} : (entry :: revisions).lookup key =
      if key = entry.1 then some entry.2 else revisions.lookup key := by
  rw [List.lookup_cons]
  by_cases same : key = entry.1
  · rw [if_pos same, beq_iff_eq.mpr same]
  · rw [if_neg same, beq_eq_false_iff_ne.mpr same]

theorem lookup_assignRevision {other : RevisionKey} : (assignRevision revisions key secret).lookup other =
      if other = key then some secret else revisions.lookup other := by
  induction revisions with
  | nil => exact lookup_revision
  | cons entry revisions ih =>
      rw [assignRevision]
      by_cases here : entry.1 = key
      · rw [if_pos here, lookup_revision, lookup_revision, here]
        by_cases same : other = key
        · rw [if_pos same, if_pos same]
        · rw [if_neg same, if_neg same, if_neg same]
      · rw [if_neg here, lookup_revision, lookup_revision, ih]
        by_cases first : other = entry.1
        · have apart : other ≠ key := fun same => here (first.symm.trans same)
          rw [if_pos first, if_neg apart, if_pos first]
        · rw [if_neg first, if_neg first]

/-- The secret of a revision, whether it is in the cache or not. -/
theorem cachedSecret_ok (truthful : Truthful decrypt revisions)
    (decrypted : decrypt key.1 key.2 = .ok secret) :
    ∃ after, cachedSecret decrypt revisions key = .ok (secret, after) ∧
      Truthful decrypt after := by
  unfold cachedSecret
  cases found : revisions.lookup key with
  | some cached =>
      obtain rfl : cached = secret :=
        Except.ok.inj ((truthful key cached found).symm.trans decrypted)
      exact ⟨revisions, rfl, truthful⟩
  | none =>
      refine ⟨assignRevision revisions key secret, ?_, ?_⟩
      · show (decrypt key.1 key.2 >>= _) = _
        rw [decrypted]
        rfl
      · intro other secret' there
        rw [lookup_assignRevision] at there
        by_cases same : other = key
        · rw [if_pos same] at there
          rw [same, ← Option.some.inj there]
          exact decrypted
        · rw [if_neg same] at there
          exact truthful other secret' there

theorem cachedSecret_eq_ok {after : List (RevisionKey × Secret)}
    (truthful : Truthful decrypt revisions)
    (done : cachedSecret decrypt revisions key = .ok (secret, after)) :
    decrypt key.1 key.2 = .ok secret := by
  unfold cachedSecret at done
  split at done
  · rename_i found
    obtain ⟨rfl, -⟩ := Prod.mk.inj (Except.ok.inj done)
    exact truthful key _ found
  · cases answer : decrypt key.1 key.2 with
    | error error =>
        rw [answer] at done
        cases done
    | ok found =>
        rw [answer] at done
        obtain ⟨rfl, -⟩ := Prod.mk.inj (Except.ok.inj done)
        rfl

/-- A target that can be served is served, and no other host changes. -/
theorem prepareTarget_ok {served : Members} (truthful : Truthful decrypt state.revisions)
    (serves : Served decrypt (escalation run) state.hosts target name served) :
    ∃ next, prepareTarget decrypt run state target = .ok next ∧
      next.hosts = Json.set state.hosts name (.obj served) ∧
        Truthful decrypt next.revisions := by
  obtain ⟨key, secret, vars, withLogin, pinned, decrypted, found, login, rfl⟩ := serves.rewritten
  obtain ⟨revisions, cached, truthful'⟩ := cachedSecret_ok truthful decrypted
  have there : hostVariables state.hosts name = .ok vars := by rw [hostVariables, found]
  unfold prepareTarget
  rw [pinned, serves.named]
  show ∃ next, (cachedSecret decrypt state.revisions key >>= _) = _ ∧ _
  rw [cached]
  show ∃ next, (hostVariables state.hosts name >>= _) = _ ∧ _
  rw [there]
  show ∃ next, (withPassword secret vars >>= _) = _ ∧ _
  rw [login]
  by_cases password : text "password" ∈ Json.keys secret
  · refine ⟨_, if_pos password, rfl, truthful'⟩
  · refine ⟨_, if_neg password, rfl, truthful'⟩

/-- Nothing else is prepared. -/
theorem served_of_prepareTarget {next : Preparing} (truthful : Truthful decrypt state.revisions)
    (done : prepareTarget decrypt run state target = .ok next) :
    ∃ name served, Served decrypt (escalation run) state.hosts target name served := by
  obtain ⟨key, isKey, rest⟩ := bind_eq_ok.mp done
  obtain ⟨⟨secret, revisions⟩, cached, rest⟩ := bind_eq_ok.mp rest
  obtain ⟨name, isName, rest⟩ := bind_eq_ok.mp rest
  obtain ⟨vars, isHost, rest⟩ := bind_eq_ok.mp rest
  obtain ⟨withLogin, login, -⟩ := bind_eq_ok.mp rest
  have pinned : cacheKey? target = some key := by
    unfold orMalformed at isKey
    split at isKey
    · rename_i found
      exact found.trans (congrArg some (Except.ok.inj isKey))
    · cases isKey
  have named : targetName? target = some name := by
    unfold orMalformed at isName
    split at isName
    · rename_i found
      exact found.trans (congrArg some (Except.ok.inj isName))
    · cases isName
  have found : state.hosts.lookup name = some (.obj vars) := by
    unfold hostVariables at isHost
    split at isHost
    · rename_i found
      exact found.trans (congrArg (fun vars => some (Json.obj vars)) (Except.ok.inj isHost))
    · cases isHost
  exact ⟨name, _, named, key, secret, vars, withLogin, pinned,
    cachedSecret_eq_ok truthful cached, found, login, rfl⟩

/-! ## All targets -/

/-- What serves a target does not depend on the other hosts. -/
theorem Served.congr {mode : Escalation} {hosts others served : Members}
    (serves : Served decrypt mode hosts target name served)
    (same : others.lookup name = hosts.lookup name) :
    Served decrypt mode others target name served := by
  obtain ⟨key, secret, vars, withLogin, pinned, decrypted, found, rest⟩ := serves.rewritten
  exact ⟨serves.named, key, secret, vars, withLogin, pinned, decrypted, same.trans found, rest⟩

/-- What is known of the hosts when the loop is through. -/
structure AllServed (decrypt : Text → Int → Except InventoryError Secret) (mode : Escalation)
    (targets : List Members) (hosts prepared : Members) : Prop where
  keys : Json.keys prepared = Json.keys hosts
  others : ∀ name, some name ∉ targets.map targetName? →
    prepared.lookup name = hosts.lookup name
  served : ∀ target ∈ targets, ∃ name served, Served decrypt mode hosts target name served ∧
    prepared.lookup name = some (.obj served)

theorem keys_set_of_lookup {hosts : Members} {found value : Json}
    (there : hosts.lookup name = some found) :
    Json.keys (Json.set hosts name value) = Json.keys hosts := by
  have member : name ∈ Json.keys hosts := by
    by_contra absent
    rw [Json.lookup_eq_none.mpr absent] at there
    cases there
  rw [Json.keys_set, if_pos member]

/-- **The loop**, for targets with different names. -/
theorem prepared_of_run {targets : List Members} {next : Preparing}
    (distinct : (targets.map targetName?).Nodup) (truthful : Truthful decrypt state.revisions)
    (done : targets.foldlM (prepareTarget decrypt run) state = .ok next) :
    AllServed decrypt (escalation run) targets state.hosts next.hosts := by
  induction targets generalizing state with
  | nil =>
      obtain rfl := Except.ok.inj done
      refine ⟨rfl, fun name _ => rfl, ?_⟩
      intro target member
      cases member
  | cons first targets ih =>
      rw [List.foldlM_cons] at done
      obtain ⟨middle, one, rest⟩ := bind_eq_ok.mp done
      obtain ⟨fresh, distinct⟩ := List.nodup_cons.mp distinct
      obtain ⟨name, served, serves⟩ := served_of_prepareTarget truthful one
      obtain ⟨middle', one', isSet, truthful'⟩ := prepareTarget_ok truthful serves
      obtain rfl : middle' = middle := Except.ok.inj (one'.symm.trans one)
      obtain ⟨keys, others, all⟩ := ih distinct truthful' rest
      rw [serves.named] at fresh
      have apart {other : Text} (isIn : some other ∈ targets.map targetName?) :
          middle'.hosts.lookup other = state.hosts.lookup other := by
        have differs : other ≠ name := by
          rintro rfl
          exact fresh isIn
        rw [isSet, Json.lookup_set, if_neg differs]
      constructor
      · obtain ⟨_, _, _, _, _, _, there, -⟩ := serves.rewritten
        rw [keys, isSet, keys_set_of_lookup there]
      · intro other absent
        rw [List.map_cons, List.mem_cons, not_or, serves.named] at absent
        have differs : other ≠ name := fun same => absent.1 (congrArg some same)
        rw [others other absent.2, isSet, Json.lookup_set, if_neg differs]
      · intro target member
        rcases List.mem_cons.mp member with rfl | later
        · refine ⟨name, served, serves, ?_⟩
          rw [others name fresh, isSet, Json.lookup_set, if_pos rfl]
        · obtain ⟨name', served', serves', there⟩ := all target later
          have isIn : some name' ∈ targets.map targetName? :=
            List.mem_map.mpr ⟨target, later, serves'.named⟩
          exact ⟨name', served', serves'.congr (apart isIn).symm, there⟩

/-- The loop gets through if every target can be served. -/
theorem run_ok {targets : List Members}
    (distinct : (targets.map targetName?).Nodup) (truthful : Truthful decrypt state.revisions)
    (all : ∀ target ∈ targets, ∃ name served,
      Served decrypt (escalation run) state.hosts target name served) :
    ∃ next, targets.foldlM (prepareTarget decrypt run) state = .ok next := by
  induction targets generalizing state with
  | nil => exact ⟨state, rfl⟩
  | cons first targets ih =>
      obtain ⟨fresh, distinct⟩ := List.nodup_cons.mp distinct
      obtain ⟨name, served, serves⟩ := all first List.mem_cons_self
      obtain ⟨middle, one, isSet, truthful'⟩ := prepareTarget_ok truthful serves
      rw [List.foldlM_cons, one]
      apply ih distinct truthful'
      intro target later
      obtain ⟨name', served', serves'⟩ := all target (List.mem_cons_of_mem _ later)
      refine ⟨name', served', serves'.congr ?_⟩
      have differs : name' ≠ name := by
        rintro rfl
        apply fresh
        rw [serves.named]
        exact List.mem_map.mpr ⟨target, later, serves'.named⟩
      rw [isSet, Json.lookup_set, if_neg differs]

end Loop

/-! ## Snapshots -/

/-- The targets of a run are hosts with different names, and its snapshot is theirs. -/
def Agrees (run : RunSpec) : Prop :=
  ∃ hosts : List ResolvedHost, (hosts.map ResolvedHost.name).Nodup ∧
    run.resolvedTargets = hosts.map ResolvedHost.target ∧
      run.inventorySnapshot = buildInventory hosts

/-- The hosts of a snapshot, in order. -/
def snapshotHosts (hosts : List ResolvedHost) : Members :=
  hosts.map fun host => (host.name, .obj host.variables)

section Snapshots

variable {hosts : List ResolvedHost}

theorem keys_snapshotHosts : Json.keys (snapshotHosts hosts) = hosts.map ResolvedHost.name := by
  simp [snapshotHosts, Json.keys, Function.comp_def]

theorem buildInventory_eq (distinct : (hosts.map ResolvedHost.name).Nodup) :
    buildInventory hosts =
      [(text "all", .obj [(text "hosts", .obj (snapshotHosts hosts))])] := by
  have merged : Json.merge [] (snapshotHosts hosts) = snapshotHosts hosts := by
    apply Json.merge_of_nodup
    rw [List.nil_append, keys_snapshotHosts]
    exact distinct
  show [(text "all", Json.obj [(text "hosts", Json.obj (Json.merge [] (snapshotHosts hosts)))])] = _
  rw [merged]

theorem targetName?_target (host : ResolvedHost) :
    targetName? host.target = some host.name := rfl

theorem cacheKey?_target (host : ResolvedHost) : cacheKey? host.target =
    some (uuidText host.credentialId, (host.credentialVersion : Int)) := rfl

theorem lookup_snapshotHosts {host : ResolvedHost}
    (distinct : (hosts.map ResolvedHost.name).Nodup) (member : host ∈ hosts) :
    (snapshotHosts hosts).lookup host.name = some (.obj host.variables) := by
  rw [Json.lookup_eq_some (keys_snapshotHosts ▸ distinct)]
  exact List.mem_map.mpr ⟨host, member, rfl⟩

end Snapshots

/-- The queries for hosts give every host once, and `hosts.name` is unique. -/
def DistinctHosts (_ : RunWorld) : RunAct → Prop
  | .create _ answers => (answers.hosts.map ResolvedHost.name).Nodup
  | _ => True

section Runs

variable {settings : RunSettings} {store : PlaybookStore} {runs runs' : List StoredRun}
  {world next : RunWorld}

theorem resolve_eq_ok {target : TargetRequest} {answers : Answers} {hosts : List ResolvedHost}
    (done : resolve target answers = .ok hosts) : hosts = answers.hosts := by
  unfold resolve at done
  extract_lets found at done
  have same : found () = .ok hosts → hosts = answers.hosts := by
    intro rest
    obtain ⟨-, -, rest⟩ := bind_eq_ok.mp rest
    exact (Except.ok.inj rest).symm
  split at done
  · exact same done
  · obtain ⟨-, -, rest⟩ := bind_eq_ok.mp done
    obtain ⟨_, -, rest⟩ := bind_eq_ok.mp rest
    exact same rest
  · obtain ⟨-, -, rest⟩ := bind_eq_ok.mp done
    obtain ⟨_, -, rest⟩ := bind_eq_ok.mp rest
    exact same rest

theorem agrees_of_create {request : CreateRequest} {answers : Answers} {stored : StoredRun}
    {created : Bool} (distinct : (answers.hosts.map ResolvedHost.name).Nodup)
    (done : create settings store runs request answers = .ok (stored, created, runs')) :
    runs' = runs ∨ ∃ run, runs' = runs ++ [run] ∧ Agrees run.spec := by
  obtain ⟨-, -, rest⟩ := bind_eq_ok.mp done
  obtain ⟨print, -, rest⟩ := bind_eq_ok.mp rest
  split at rest
  · obtain ⟨-, -, rest⟩ := bind_eq_ok.mp rest
    obtain ⟨-, same⟩ := Prod.mk.inj (Except.ok.inj rest)
    exact .inl (Prod.mk.inj same).2.symm
  · obtain ⟨hosts, resolved, rest⟩ := bind_eq_ok.mp rest
    obtain ⟨operation, -, rest⟩ := bind_eq_ok.mp rest
    obtain rfl := resolve_eq_ok resolved
    rcases persist_eq_ok rest with ⟨-, same⟩ | ⟨-, -, added, -⟩
    · exact .inl same
    · exact .inr ⟨_, added, answers.hosts, distinct, rfl, rfl⟩

/-- **One step** adds no run whose snapshot is another one than that of its targets. -/
theorem agrees_of_step {act : RunAct} (ok : DistinctHosts world act)
    (all : ∀ run ∈ world.runs, Agrees run.spec)
    (step : (runSystem settings).step world act = some next) :
    ∀ run ∈ next.runs, Agrees run.spec := by
  cases act with
  | onPlaybooks act =>
      obtain ⟨playbooks, -, rfl⟩ := Option.map_eq_some_iff.mp step
      exact all
  | create call answers =>
      obtain rfl := Option.some.inj step
      intro run member
      unfold RunWorld.answered at member
      split at member
      · rename_i done
        obtain ⟨request, -, rest⟩ := bind_eq_ok.mp done
        rcases agrees_of_create ok rest with rfl | ⟨new, rfl, agrees⟩
        · exact all run member
        · rcases List.mem_append.mp member with old | isNew
          · exact all run old
          · exact List.mem_singleton.mp isNew ▸ agrees
      · exact all run member
  | retry request answers =>
      obtain rfl := Option.some.inj step
      intro run member
      unfold RunWorld.answered at member
      split at member
      · rename_i done
        rcases retry_eq_ok done with ⟨-, rfl⟩ | ⟨-, rfl, source, operation, added⟩
        · exact all run member
        · rcases List.mem_append.mp member with old | isNew
          · exact all run old
          · obtain ⟨print, isRun⟩ := added.isNew
            rw [List.mem_singleton.mp isNew, isRun]
            exact all source (mem_of_findRun added.found).1
      · exact all run member
  | move runId status =>
      obtain rfl := Option.some.inj step
      intro run member
      obtain ⟨old, isOld, rfl⟩ := List.mem_map.mp member
      by_cases isIt : old.runId = runId
      · rw [if_pos isIt]
        exact all old isOld
      · rw [if_neg isIt]
        exact all old isOld

/-- **The snapshot of every run** is that of its targets. -/
theorem agrees_of_reachable
    (reached : ((runSystem settings).restrict DistinctHosts).Reachable world) :
    ∀ run ∈ world.runs, Agrees run.spec := by
  have invariant : ((runSystem settings).restrict DistinctHosts).Inductive
      fun world => ∀ run ∈ world.runs, Agrees run.spec := by
    constructor
    · rintro world ⟨-, none⟩ run member
      rw [none] at member
      cases member
    · intro world act next all step
      obtain ⟨ok, step⟩ := System.restrict_step.mp step
      exact agrees_of_step ok all step
  exact invariant.of_reachable reached

end Runs

/-! ## Every run -/

/-- A secret with which a host can be reached. -/
def Usable (secret : Secret) : Prop :=
  text "password" ∈ Json.keys secret ∨ text "privateKey" ∈ Json.keys secret

/-- Whatever the credential service stores for a revision can be used. -/
theorem usable_passwordSecret (password : Assets.SecretText)
    (becomePassword : Option Assets.SecretText) :
    Usable (Assets.passwordSecret password becomePassword).fields := by
  apply Or.inl
  cases becomePassword with
  | none => exact List.mem_cons_self
  | some become => exact List.mem_cons_of_mem _ List.mem_cons_self

theorem usable_privateKeySecret (privateKey : Assets.SecretText)
    (passphrase becomePassword : Option Assets.SecretText) :
    Usable (Assets.privateKeySecret privateKey passphrase becomePassword).fields := by
  apply Or.inr
  apply List.mem_map.mpr
  refine ⟨(text "privateKey", privateKey.value), ?_, rfl⟩
  apply List.mem_filterMap.mpr
  exact ⟨(text "privateKey", some privateKey), by simp, rfl⟩

/-- Every revision that a target of the run has pinned is decrypted to a usable secret. -/
def Decrypts (decrypt : Text → Int → Except InventoryError Secret) (run : RunSpec) : Prop :=
  ∀ target ∈ run.resolvedTargets, ∀ key, cacheKey? target = some key →
    ∃ secret, decrypt key.1 key.2 = .ok secret ∧ Usable secret

/-- The hosts of an inventory. -/
def hostsOf (inventory : Members) : Members :=
  match inventory.lookup (text "all") with
  | some (.obj all) =>
      match all.lookup (text "hosts") with
      | some (.obj hosts) => hosts
      | _ => []
  | _ => []

/-- The variables of a host of an inventory. -/
def variablesOf (inventory : Members) (name : Text) : Option Members :=
  match (hostsOf inventory).lookup name with
  | some (.obj vars) => some vars
  | _ => none

/-- A variable of a host of an inventory. -/
def variableOf (inventory : Members) (name key : Text) : Option Json :=
  (variablesOf inventory name).bind fun vars => vars.lookup key

/-- What the inventory of a run tells its hosts. -/
structure Isolated (decrypt : Text → Int → Except InventoryError Secret) (run : RunSpec)
    (prepared : PreparedInventory) : Prop where
  /-- The hosts are those of the targets. -/
  hosts : prepared.inventory =
    [(text "all", .obj [(text "hosts", .obj (hostsOf prepared.inventory))])] ∧
      (Json.keys (hostsOf prepared.inventory)).map some = run.resolvedTargets.map targetName?
  /-- Every other variable is that of the snapshot. -/
  kept : ∀ name, ∀ key ∉ secretVariables,
    variableOf prepared.inventory name key = variableOf run.inventorySnapshot name key
  /-- The variables of a host follow from the secret of its own revision. -/
  own : ∀ target ∈ run.resolvedTargets, ∀ key name, cacheKey? target = some key →
    targetName? target = some name → ∀ other prepared',
      runtimeInventory other run = .ok prepared' → other key.1 key.2 = decrypt key.1 key.2 →
        variablesOf prepared'.inventory name = variablesOf prepared.inventory name
  /-- A command without escalation. -/
  disabled : run.kind = .command →
    run.operationSpec.lookup (text "become") = some (.str (text "DISABLED")) →
      ∀ name, ∀ key ∈ becomeVariables, variableOf prepared.inventory name key = none

section Inventory

variable {decrypt : Text → Int → Except InventoryError Secret} {run : RunSpec}
  {hosts : List ResolvedHost} {prepared : PreparedInventory}

/-- An inventory of hosts, and nothing else. -/
def inventoryOf (hosts : Members) : Members :=
  [(text "all", .obj [(text "hosts", .obj hosts)])]

theorem hostsOf_inventoryOf (hosts : Members) : hostsOf (inventoryOf hosts) = hosts := rfl

/-- The inventory, in terms of the loop. -/
theorem runtimeInventory_eq_ok
    (snapshot : run.inventorySnapshot = inventoryOf (snapshotHosts hosts)) :
    runtimeInventory decrypt run = .ok prepared ↔
      ∃ next, run.resolvedTargets.foldlM (prepareTarget decrypt run)
          { hosts := snapshotHosts hosts } = .ok next ∧
        prepared = ⟨inventoryOf next.hosts, next.secrets, next.privateKeyRevisions,
          next.privateKeyHosts⟩ := by
  unfold runtimeInventory
  rw [snapshot]
  show (_ >>= _) = _ ↔ _
  rw [bind_eq_ok]
  constructor
  · rintro ⟨next, done, same⟩
    exact ⟨next, done, (Except.ok.inj same).symm⟩
  · rintro ⟨next, done, rfl⟩
    exact ⟨next, done, rfl⟩

theorem withPassword_of_usable {secret : Secret} (usable : Usable secret) (vars : Members) :
    ∃ withLogin, withPassword secret vars = .ok withLogin := by
  unfold withPassword
  cases found : secret.lookup (text "password") with
  | some password => exact ⟨_, rfl⟩
  | none =>
      have privateKey := usable.resolve_left (Json.lookup_eq_none.mp found)
      exact ⟨vars, if_pos privateKey⟩

theorem names_targets (hosts : List ResolvedHost) :
    (hosts.map ResolvedHost.target).map targetName? =
      (hosts.map ResolvedHost.name).map some := by
  rw [List.map_map, List.map_map]
  apply List.map_congr_left
  intro host _
  exact targetName?_target host

theorem nodup_targets (distinct : (hosts.map ResolvedHost.name).Nodup) :
    ((hosts.map ResolvedHost.target).map targetName?).Nodup := by
  rw [names_targets]
  exact distinct.map (Option.some_injective _)

theorem truthful_nil : Truthful decrypt [] := by
  intro key secret found
  cases found

/-- The parts of `Agrees`. -/
theorem Agrees.parts (agrees : Agrees run) : ∃ hosts : List ResolvedHost,
    (hosts.map ResolvedHost.name).Nodup ∧ run.resolvedTargets = hosts.map ResolvedHost.target ∧
      run.inventorySnapshot = inventoryOf (snapshotHosts hosts) := by
  obtain ⟨hosts, distinct, targets, snapshot⟩ := agrees
  exact ⟨hosts, distinct, targets, snapshot.trans (buildInventory_eq distinct)⟩

/-- A run gets its inventory if its revisions can be decrypted. -/
theorem runtimeInventory_ok (agrees : Agrees run) (decrypted : Decrypts decrypt run) :
    ∃ prepared, runtimeInventory decrypt run = .ok prepared := by
  obtain ⟨hosts, distinct, targets, snapshot⟩ := agrees.parts
  have serves : ∀ target ∈ run.resolvedTargets, ∃ name served,
      Served decrypt (escalation run) (snapshotHosts hosts) target name served := by
    intro target isTarget
    have isTarget' := isTarget
    rw [targets] at isTarget'
    obtain ⟨host, member, rfl⟩ := List.mem_map.mp isTarget'
    obtain ⟨secret, opened, usable⟩ := decrypted _ isTarget _ (cacheKey?_target host)
    obtain ⟨withLogin, login⟩ := withPassword_of_usable usable host.variables
    exact ⟨host.name, _, targetName?_target host, _, secret, host.variables, withLogin,
      cacheKey?_target host, opened, lookup_snapshotHosts distinct member, login, rfl⟩
  obtain ⟨next, done⟩ : ∃ next, run.resolvedTargets.foldlM (prepareTarget decrypt run)
      { hosts := snapshotHosts hosts } = .ok next := by
    apply run_ok _ truthful_nil serves
    rw [targets]
    exact nodup_targets distinct
  exact ⟨_, (runtimeInventory_eq_ok snapshot).mpr ⟨next, done, rfl⟩⟩

/-- What the loop comes to, for the inventory of a run. -/
structure AllTold (decrypt : Text → Int → Except InventoryError Secret) (run : RunSpec)
    (hosts : List ResolvedHost) (inventory : Members) : Prop where
  only : inventory = inventoryOf (hostsOf inventory)
  keys : Json.keys (hostsOf inventory) = hosts.map ResolvedHost.name
  told : ∀ host ∈ hosts, ∃ secret withLogin,
    decrypt (uuidText host.credentialId) host.credentialVersion = .ok secret ∧
      withPassword secret host.variables = .ok withLogin ∧
        variablesOf inventory host.name = some (escalated secret withLogin (escalation run))

theorem allTold (distinct : (hosts.map ResolvedHost.name).Nodup)
    (targets : run.resolvedTargets = hosts.map ResolvedHost.target)
    (snapshot : run.inventorySnapshot = inventoryOf (snapshotHosts hosts))
    (done : runtimeInventory decrypt run = .ok prepared) :
    AllTold decrypt run hosts prepared.inventory := by
  obtain ⟨next, through, rfl⟩ := (runtimeInventory_eq_ok snapshot).mp done
  obtain ⟨keys, -, served⟩ :=
    prepared_of_run (targets ▸ nodup_targets distinct) truthful_nil through
  refine ⟨rfl, keys.trans keys_snapshotHosts, ?_⟩
  intro host member
  obtain ⟨name, final, serves, there⟩ :=
    served host.target (targets ▸ List.mem_map.mpr ⟨host, member, rfl⟩)
  obtain ⟨key, secret, vars, withLogin, pinned, opened, found, login, rfl⟩ := serves.rewritten
  obtain rfl := Option.some.inj ((targetName?_target host).symm.trans serves.named)
  obtain rfl := Option.some.inj ((cacheKey?_target host).symm.trans pinned)
  obtain rfl : host.variables = vars :=
    Json.obj.inj (Option.some.inj ((lookup_snapshotHosts distinct member).symm.trans found))
  refine ⟨secret, withLogin, opened, login, ?_⟩
  rw [variablesOf, hostsOf_inventoryOf, there]

/-- There are no other hosts. -/
theorem AllTold.variablesOf_eq_none {inventory : Members}
    (told : AllTold decrypt run hosts inventory) {name : Text}
    (other : name ∉ hosts.map ResolvedHost.name) : variablesOf inventory name = none := by
  have absent : (hostsOf inventory).lookup name = none := by
    rw [Json.lookup_eq_none, told.keys]
    exact other
  rw [variablesOf, absent]

theorem variablesOf_snapshot {host : ResolvedHost}
    (distinct : (hosts.map ResolvedHost.name).Nodup) (member : host ∈ hosts) :
    variablesOf (inventoryOf (snapshotHosts hosts)) host.name = some host.variables := by
  rw [variablesOf, hostsOf_inventoryOf, lookup_snapshotHosts distinct member]

theorem variablesOf_snapshot_eq_none {name : Text} (other : name ∉ hosts.map ResolvedHost.name) :
    variablesOf (inventoryOf (snapshotHosts hosts)) name = none := by
  have absent : (snapshotHosts hosts).lookup name = none := by
    rw [Json.lookup_eq_none, keys_snapshotHosts]
    exact other
  rw [variablesOf, hostsOf_inventoryOf, absent]

/-- The inventory that a run gets tells every host what is its own. -/
theorem isolated_of_agrees (agrees : Agrees run)
    (done : runtimeInventory decrypt run = .ok prepared) : Isolated decrypt run prepared := by
  obtain ⟨hosts, distinct, targets, snapshot⟩ := agrees.parts
  have all := allTold distinct targets snapshot done
  refine ⟨⟨all.only, ?_⟩, ?_, ?_, ?_⟩
  · rw [all.keys, targets, names_targets]
  · intro name key apart
    obtain ⟨notPassword, notBecome⟩ := not_or.mp fun either => apart (List.mem_cons.mpr either)
    rw [variableOf, variableOf, snapshot]
    by_cases isHost : name ∈ hosts.map ResolvedHost.name
    · obtain ⟨host, member, rfl⟩ := List.mem_map.mp isHost
      obtain ⟨secret, withLogin, -, login, there⟩ := all.told host member
      rw [there, variablesOf_snapshot distinct member]
      show (escalated secret withLogin (escalation run)).lookup key = host.variables.lookup key
      rw [lookup_escalated notBecome, lookup_withPassword login notPassword]
    · rw [all.variablesOf_eq_none isHost, variablesOf_snapshot_eq_none isHost]
  · intro target isTarget key name pinned named other prepared' done' same
    rw [targets] at isTarget
    obtain ⟨host, member, rfl⟩ := List.mem_map.mp isTarget
    obtain rfl := Option.some.inj ((targetName?_target host).symm.trans named)
    obtain rfl := Option.some.inj ((cacheKey?_target host).symm.trans pinned)
    have all' := allTold distinct targets snapshot done'
    obtain ⟨secret, withLogin, opened, login, there⟩ := all.told host member
    obtain ⟨secret', withLogin', opened', login', there'⟩ := all'.told host member
    obtain rfl : secret' = secret := Except.ok.inj (opened'.symm.trans (same.trans opened))
    obtain rfl : withLogin' = withLogin := Except.ok.inj (login'.symm.trans login)
    rw [there, there']
  · intro isCommand isDisabled name key isBecome
    have mode : escalation run = .disabled := by
      rw [escalation, isCommand, isDisabled]
      rfl
    rw [variableOf]
    by_cases isHost : name ∈ hosts.map ResolvedHost.name
    · obtain ⟨host, member, rfl⟩ := List.mem_map.mp isHost
      obtain ⟨secret, withLogin, -, -, there⟩ := all.told host member
      rw [there, mode]
      show (becomeVariables.foldl Json.pop withLogin).lookup key = none
      rw [lookup_foldl_pop, if_pos isBecome]
    · rw [all.variablesOf_eq_none isHost]
      rfl

end Inventory

/-- **The runtime inventory isolates the hosts**: in every run of requests, retries and edits, a
run gets an inventory of the hosts of its targets, in which every host has the variables of the
snapshot and what follows from the secret of its own revision. -/
theorem runtime_inventory_isolated {settings : RunSettings} {world : RunWorld} {run : StoredRun}
    {decrypt : Text → Int → Except InventoryError Secret}
    (reached : ((runSystem settings).restrict DistinctHosts).Reachable world)
    (member : run ∈ world.runs) (decrypted : Decrypts decrypt run.spec) :
    ∃ prepared, runtimeInventory decrypt run.spec = .ok prepared ∧
      Isolated decrypt run.spec prepared := by
  have agrees := agrees_of_reachable reached run member
  obtain ⟨prepared, done⟩ := runtimeInventory_ok agrees decrypted
  exact ⟨prepared, done, isolated_of_agrees agrees done⟩

/-! ## A command on two hosts -/

/-- A host that escalates with a private key. -/
def dbHost : ResolvedHost where
  hostId := 8
  name := text "db"
  address := text "10.0.0.8"
  sshPort := 22
  credentialId := 9
  credentialVersion := 2
  credentialUsername := text "ops"
  credentialPublicConfig := [(text "becomeEnabled", .bool true)]

/-- A command without escalation on all hosts. -/
def commandAct : RunAct :=
  .create (.command ⟨10, 7, text "key-10-1", ⟨.all, [], none⟩, 60, 1⟩ .command (text "id")
    (text "DISABLED") false) { hosts := [webHost, dbHost] }

/-- A private key. -/
def keyText : Assets.SecretText := ⟨text "key", by decide⟩

/-- A password. -/
def passwordText : Assets.SecretText := ⟨text "pw", by decide⟩

/-- One credential with a key, and all others with a password. -/
def twoSecrets (credentialId : Text) (_ : Int) : Except InventoryError Secret :=
  if credentialId = uuidText 9 then .ok (Assets.privateKeySecret keyText none none).fields
  else .ok (Assets.passwordSecret passwordText none).fields

theorem decrypts_twoSecrets (run : RunSpec) : Decrypts twoSecrets run := by
  intro target _ key _
  unfold twoSecrets
  split
  · exact ⟨_, rfl, usable_privateKeySecret keyText none none⟩
  · exact ⟨_, rfl, usable_passwordSecret passwordText none⟩

theorem runtime_inventory_isolated_command : ∃ world run prepared,
    ((runSystem deploySettings).restrict DistinctHosts).Reachable world ∧ run ∈ world.runs ∧
      run.spec.resolvedTargets.map targetName? = [some (text "web"), some (text "db")] ∧
        runtimeInventory twoSecrets run.spec = .ok prepared ∧
          Isolated twoSecrets run.spec prepared := by
  have checked : (((runSystem deploySettings).exec noRuns [commandAct]).any fun world =>
      world.runs.any fun run =>
        run.spec.resolvedTargets.map targetName? = [some (text "web"), some (text "db")]) =
      true := by
    decide +kernel
  obtain ⟨world, ran, all⟩ := (Option.any_eq_true _ _).mp checked
  obtain ⟨run, member, names⟩ := List.any_eq_true.mp all
  have along : (runSystem deploySettings).Along DistinctHosts noRuns [commandAct] := by
    refine ⟨?_, fun _ _ => trivial⟩
    show ([webHost, dbHost].map ResolvedHost.name).Nodup
    decide
  have reached : ((runSystem deploySettings).restrict DistinctHosts).Reachable world :=
    ⟨noRuns, ⟨⟨_, _, rfl, rfl⟩, rfl⟩, System.leads_restrict_of_exec ran along⟩
  obtain ⟨prepared, done, isolated⟩ :=
    runtime_inventory_isolated reached member (decrypts_twoSecrets run.spec)
  exact ⟨world, run, prepared, reached, member, of_decide_eq_true names, done, isolated⟩

end OpsComposer.RunSpecs
