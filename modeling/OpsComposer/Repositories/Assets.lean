import OpsComposer.Foundations.Chronicle
import OpsComposer.Services.Crypto

/-!
# Credentials and hosts

The rows of `credentials`, `credential_revisions`, `credential_secret_envelopes` and
`hosts`, and the statements of `PostgresAssetRepository` on them.

A row of `credentials` is never removed: deleting sets `deleted_at`.  The foreign keys
from hosts and revisions to credentials therefore always hold, and their key-share locks
do not wait for statements that leave the key as it is.
-/

set_option autoImplicit false

namespace OpsComposer.Assets

open Domain (Uuid)
open Foundations Services

/-! ## Rows -/

/-- A `dict[str, object]`. -/
abbrev Config := List (Text × Json)

namespace Config

/-- The value of an entry. -/
def get? (config : Config) (name : Text) : Option Json :=
  (config.find? fun entry => decide (entry.1 = name)).map Prod.snd

/-- `config | other`, where the members of `other` win. -/
def union (config other : Config) : Config :=
  other ++ config.filter fun entry => (other.get? entry.1).isNone

theorem get?_union (config other : Config) (name : Text) :
    (config.union other).get? name = (other.get? name).or (config.get? name) := by
  simp only [union, get?, List.find?_append, List.find?_filter, Option.isNone_map]
  cases found : other.find? fun entry => decide (entry.1 = name) with
  | some entry => rfl
  | none =>
      refine congrArg _ (congrArg _ (List.find?_congr fun entry _ => ?_))
      by_cases same : entry.1 = name
      · simp [same, found]
      · simp [same]

end Config

/-- The two types of a credential. -/
inductive CredentialType where
  | password
  | sshPrivateKey
  deriving DecidableEq

/-- A row of `credentials`. -/
structure Credential where
  credentialId : Uuid
  name : Text
  credentialType : CredentialType
  username : Text
  publicConfig : Config := []
  currentVersion : Nat
  lockVersion : Nat := 1
  enabled : Bool
  description : Text
  deletedAt : Option Nat := none
  createdAt : Nat
  updatedAt : Nat

/-- A row of `credential_revisions`. -/
structure CredentialRevision where
  credentialId : Uuid
  version : Nat
  createdAt : Nat

/-- A row of `credential_secret_envelopes`. -/
structure SecretEnvelope where
  credentialId : Uuid
  revision : Nat
  encryptedSecret : Bytes
  encryptionKeyVersion : Nat
  updatedAt : Nat

/-- A row of `hosts`. -/
structure Host where
  hostId : Uuid
  name : Text
  address : Text
  sshPort : Nat
  credentialId : Uuid
  pythonInterpreter : Option Text := none
  enabled : Bool
  description : Text
  hostVariables : Config := []
  version : Nat
  createdAt : Nat
  updatedAt : Nat

/-- What a row is found by. -/
inductive AssetKey where
  | credential (credentialId : Uuid)
  | revision (credentialId : Uuid) (version : Nat)
  | envelope (credentialId : Uuid) (revision : Nat)
  | host (hostId : Uuid)
  deriving DecidableEq

/-- A row of one of the tables. -/
inductive AssetRow where
  | credential (row : Credential)
  | revision (row : CredentialRevision)
  | envelope (row : SecretEnvelope)
  | host (row : Host)

namespace AssetRow

/-- The key of a row. -/
def key : AssetRow → AssetKey
  | .credential row => .credential row.credentialId
  | .revision row => .revision row.credentialId row.version
  | .envelope row => .envelope row.credentialId row.revision
  | .host row => .host row.hostId

/-- The rows of `credential`. -/
def credentials : RowKind AssetRow Credential where
  wrap := .credential
  unwrap
    | .credential row => some row
    | _ => none

/-- The rows of `hosts`. -/
def hosts : RowKind AssetRow Host where
  wrap := .host
  unwrap
    | .host row => some row
    | _ => none

/-- The unique indexes besides the primary keys. -/
def clash : AssetRow → AssetRow → Bool
  | .credential row, .credential other => decide (row.name = other.name)
  | .host row, .host other => decide (row.name = other.name)
  | _, _ => false

end AssetRow

/-- The tables of the assets. -/
abbrev AssetStore := Table AssetRow.key

namespace AssetStore

/-- The credential with the identifier. -/
def credential? (store : AssetStore) (credentialId : Uuid) : Option Credential :=
  (store.lookup (.credential credentialId)).bind AssetRow.credentials.unwrap

/-- The hosts that are stored, deleted ones too. -/
def hosts (store : AssetStore) : List Host := store.rows.filterMap AssetRow.hosts.unwrap

end AssetStore

/-! ## Statements -/

/-- The statements of the repository. -/
inductive AssetStatement where
  | getCredential (credentialId : Uuid) (forUpdate : Bool)
  /-- The first statement of `add_credential`. -/
  | addCredential (credential : Credential)
  /-- The two inserts that `add_credential` and `rotate_credential` share. -/
  | addRevision (revision : CredentialRevision)
  | addEnvelope (envelope : SecretEnvelope)
  /-- The last statement of `rotate_credential`. -/
  | setCurrentVersion (credentialId : Uuid) (version now : Nat)
  | updateCredentialMetadata (credential : Credential) (expectedLockVersion : Nat)
  | deleteCredential (credentialId : Uuid) (now : Nat)
  | getHost (hostId : Uuid)
  | addHost (host : Host)
  | updateHost (host : Host) (expectedVersion : Nat)
  /-- `referenced`: the subselect finds a run target of the host. -/
  | deleteHost (hostId : Uuid) (referenced : Bool)

/-- The row that `get_credential` looks for. -/
def isLive (credentialId : Uuid) (row : Credential) : Bool :=
  decide (row.credentialId = credentialId ∧ row.deletedAt = none)

/-- What an update of a credential leaves. -/
def withVersion (version now : Nat) (row : Credential) : Credential :=
  { row with currentVersion := version, lockVersion := row.lockVersion + 1, updatedAt := now }

/-- A credential as an update of its metadata writes it. -/
def withMetadata (credential row : Credential) : Credential :=
  { row with
    name := credential.name
    username := credential.username
    publicConfig := credential.publicConfig
    enabled := credential.enabled
    description := credential.description
    lockVersion := row.lockVersion + 1
    updatedAt := credential.updatedAt }

/-- A credential as its deletion writes it. -/
def deletedAtTime (now : Nat) (row : Credential) : Credential :=
  { row with enabled := false, deletedAt := some now, updatedAt := now }

/-- What an update of a host leaves. -/
def withData (host row : Host) : Host :=
  { row with
    name := host.name
    address := host.address
    sshPort := host.sshPort
    credentialId := host.credentialId
    pythonInterpreter := host.pythonInterpreter
    enabled := host.enabled
    description := host.description
    hostVariables := host.hostVariables
    version := row.version + 1
    updatedAt := host.updatedAt }

/-- An update of credentials. -/
def setCredential (condition : Credential → Bool) (f : Credential → Credential)
    (keeps : ∀ row, (f row).credentialId = row.credentialId) :
    Command AssetStore AssetKey AssetRow :=
  .set (AssetRow.credentials.meets condition) (AssetRow.credentials.map f)
    (AssetRow.credentials.map_keeps fun row => congrArg AssetKey.credential (keeps row))

/-- An update of hosts. -/
def setHost (condition : Host → Bool) (f : Host → Host)
    (keeps : ∀ row, (f row).hostId = row.hostId) : Command AssetStore AssetKey AssetRow :=
  .set (AssetRow.hosts.meets condition) (AssetRow.hosts.map f)
    (AssetRow.hosts.map_keeps fun row => congrArg AssetKey.host (keeps row))

/-- What a statement does to the tables, as they are when it starts. -/
def AssetStatement.meaning (statement : AssetStatement) (store : AssetStore) :
    Command AssetStore AssetKey AssetRow :=
  match statement with
  | .getCredential credentialId false =>
      .select (store.rows.filter (AssetRow.credentials.meets (isLive credentialId)))
  | .getCredential credentialId true => .lock (AssetRow.credentials.meets (isLive credentialId))
  | .addCredential credential => .insert (.credential credential) false
  | .addRevision revision => .insert (.revision revision) false
  | .addEnvelope envelope => .insert (.envelope envelope) false
  | .setCurrentVersion credentialId version now =>
      setCredential (isLive credentialId) (withVersion version now) fun _ => rfl
  | .updateCredentialMetadata credential expectedLockVersion =>
      setCredential
        (fun row => isLive credential.credentialId row &&
          decide (row.lockVersion = expectedLockVersion))
        (withMetadata credential) fun _ => rfl
  | .deleteCredential credentialId now =>
      setCredential
        (fun row => isLive credentialId row &&
          !store.hosts.any fun host => decide (host.credentialId = row.credentialId))
        (deletedAtTime now) fun _ => rfl
  | .getHost hostId =>
      .select (store.rows.filter (AssetRow.hosts.meets fun host => decide (host.hostId = hostId)))
  | .addHost host => .insert (.host host) false
  | .updateHost host expectedVersion =>
      setHost (fun row => decide (row.hostId = host.hostId ∧ row.version = expectedVersion))
        (withData host) fun _ => rfl
  | .deleteHost hostId referenced =>
      .delete (AssetRow.hosts.meets fun host => decide (host.hostId = hostId) && !referenced)

/-- The writes that the returned rows of a statement tell. -/
def AssetStatement.effects (statement : AssetStatement) (shown : List AssetRow) :
    List (Write AssetKey AssetRow) :=
  match statement with
  | .getCredential _ false => []
  | .getHost _ => []
  | .deleteHost _ _ => shown.map fun row => .erase row.key
  | _ => shown.map .put

end OpsComposer.Assets
