import OpsComposer.Services.RunSpecs

/-!
# The inventory of a run

`_runtime_inventory` of the worker: the inventory that a run has stored, with the secrets of the
credentials of its hosts put in.  The credential service is a parameter: what
`decrypt_revision(UUID(credential_id), version)` returns, or that it raises.

What is read of a target is there in the targets of every run (`ResolvedHost.target`); an entry
without it is malformed.
-/

set_option autoImplicit false

namespace OpsComposer.RunSpecs

open Domain (RunKind)
open Foundations Services
open Services.PlaybookProject (Members)

/-- What a revision of a credential is decrypted to. -/
abbrev Secret := List (Text × Text)

/-- A revision of a credential: `cache_key`. -/
abbrev RevisionKey := Text × Int

/-- What the preparation of an inventory raises. -/
inductive InventoryError where
  /-- `ValueError`. -/
  | invalid (message : String)
  /-- Whatever `decrypt_revision` raises. -/
  | undecryptable
  /-- A member of a target is missing, or has no such value. -/
  | malformedTarget
  deriving DecidableEq

/-- `PreparedInventory`. -/
structure PreparedInventory where
  inventory : Members
  secrets : List Text
  privateKeyRevisions : List (RevisionKey × Secret)
  privateKeyHosts : List (Text × RevisionKey)

/-! ## Targets -/

/-- `str(target["credentialId"])` and `int(str(target["credentialVersion"]))`. -/
def cacheKey? (target : Members) : Option RevisionKey :=
  match target.lookup (text "credentialId"), target.lookup (text "credentialVersion") with
  | some (.str credentialId), some (.int version) => some (credentialId, version)
  | _, _ => none

/-- `str(target["name"])`. -/
def targetName? (target : Members) : Option Text :=
  match target.lookup (text "name") with
  | some (.str name) => some name
  | _ => none

/-! ## The variables of a host -/

/-- What is asked of the escalation. -/
inductive Escalation where
  | credentialDefault
  | enabled
  | disabled
  deriving DecidableEq

/-- `become`: only a command says something, and what is no text is none of the words. -/
def escalation (run : RunSpec) : Escalation :=
  match run.kind, run.operationSpec.lookup (text "become") with
  | .command, some (.str become) =>
      if become = text "DISABLED" then .disabled
      else if become = text "ENABLED" then .enabled
      else .credentialDefault
  | _, _ => .credentialDefault

/-- The variables that are taken away where the escalation is disabled. -/
def becomeVariables : List Text :=
  [text "ansible_become", text "ansible_become_method", text "ansible_become_user",
    text "ansible_become_password"]

/-- `secret.get("becomePassword") or secret.get("password")`. -/
def becomePassword (secret : Secret) : Option Text :=
  match secret.lookup (text "becomePassword") with
  | some (c :: password) => some (c :: password)
  | _ => secret.lookup (text "password")

/-- The variables with the password for privilege escalation, if there is one. -/
def withBecomePassword (secret : Secret) (vars : Members) : Members :=
  match becomePassword secret with
  | some password => Json.set vars (text "ansible_become_password") (.str password)
  | none => vars

/-- The three modes of the escalation. -/
def escalated (secret : Secret) (vars : Members) : Escalation → Members
  | .disabled => becomeVariables.foldl Json.pop vars
  | .enabled =>
      let become := Json.set vars (text "ansible_become") (.bool true)
      let method := Json.setDefault become (text "ansible_become_method") (.str (text "sudo"))
      withBecomePassword secret
        (Json.setDefault method (text "ansible_become_user") (.str (text "root")))
  | .credentialDefault =>
      if (vars.lookup (text "ansible_become")).any Json.truthy then
        withBecomePassword secret vars
      else vars

/-- The password of the login; a private key leaves the variables as they are. -/
def withPassword (secret : Secret) (vars : Members) : Except InventoryError Members :=
  match secret.lookup (text "password") with
  | some password => .ok (Json.set vars (text "ansible_password") (.str password))
  | none =>
      if text "privateKey" ∈ Json.keys secret then .ok vars
      else .error (.invalid "credential secret payload is invalid")

/-! ## The loop -/

/-- `dict[key] = value`. -/
def assignRevision : List (RevisionKey × Secret) → RevisionKey → Secret →
    List (RevisionKey × Secret)
  | [], key, secret => [(key, secret)]
  | entry :: entries, key, secret =>
      if entry.1 = key then (key, secret) :: entries
      else entry :: assignRevision entries key secret

/-- What the loop over the targets carries along. -/
structure Preparing where
  /-- `hosts_value`. -/
  hosts : Members
  secrets : List Text := []
  revisions : List (RevisionKey × Secret) := []
  privateKeyRevisions : List (RevisionKey × Secret) := []
  privateKeyHosts : List (Text × RevisionKey) := []

section Worker

-- the answers of the credential service
variable (decrypt : Text → Int → Except InventoryError Secret)

/-- The secret of a revision, from the cache if it is there. -/
def cachedSecret (revisions : List (RevisionKey × Secret)) (key : RevisionKey) :
    Except InventoryError (Secret × List (RevisionKey × Secret)) :=
  match revisions.lookup key with
  | some secret => .ok (secret, revisions)
  | none => do
      let secret ← decrypt key.1 key.2
      return (secret, assignRevision revisions key secret)

/-- What `hosts_value` has for a name. -/
def hostVariables (hosts : Members) (name : Text) : Except InventoryError Members :=
  match hosts.lookup name with
  | some (.obj vars) => .ok vars
  | _ => .error (.invalid "inventory target snapshot is invalid")

/-- The value, or the error of a target that lacks it. -/
def orMalformed {α : Type} : Option α → Except InventoryError α
  | some value => .ok value
  | none => .error .malformedTarget

/-- The body of the loop. -/
def prepareTarget (run : RunSpec) (state : Preparing) (target : Members) :
    Except InventoryError Preparing := do
  let key ← orMalformed (cacheKey? target)
  let (secret, revisions) ← cachedSecret decrypt state.revisions key
  let name ← orMalformed (targetName? target)
  let vars ← hostVariables state.hosts name
  let withLogin ← withPassword secret vars
  let hosts := Json.set state.hosts name (.obj (escalated secret withLogin (escalation run)))
  let secrets := state.secrets ++ (secret.map Prod.snd).filter (· ≠ [])
  if text "password" ∈ Json.keys secret then
    return { state with hosts := hosts, secrets := secrets, revisions := revisions }
  else
    return {
      hosts := hosts
      secrets := secrets
      revisions := revisions
      privateKeyRevisions := assignRevision state.privateKeyRevisions key secret
      privateKeyHosts := Json.set state.privateKeyHosts name key }

/-- `_runtime_inventory`. -/
def runtimeInventory (run : RunSpec) : Except InventoryError PreparedInventory :=
  match run.inventorySnapshot.lookup (text "all") with
  | some (.obj all) =>
      match all.lookup (text "hosts") with
      | some (.obj hosts) => do
          let prepared ← run.resolvedTargets.foldlM (prepareTarget decrypt run) { hosts := hosts }
          return {
            inventory := Json.set run.inventorySnapshot (text "all")
              (.obj (Json.set all (text "hosts") (.obj prepared.hosts)))
            secrets := prepared.secrets
            privateKeyRevisions := prepared.privateKeyRevisions
            privateKeyHosts := prepared.privateKeyHosts }
      | _ => .error (.invalid "inventory snapshot hosts are invalid")
  | _ => .error (.invalid "inventory snapshot is invalid")

end Worker

end OpsComposer.RunSpecs
