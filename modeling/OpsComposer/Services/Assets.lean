import OpsComposer.Repositories.Assets

/-!
# The services of credentials and hosts

`CredentialService` and `AssetService` of `services/assets.py`: one definition for each
operation, as the program of its unit of work.  What an operation draws at random comes
with its call.  The audit events are left out, and so are the checks of the permissions of
the actor, which refuse a call before anything is read.

The parsing of private keys and of addresses rests on libraries and is a parameter.
-/

set_option autoImplicit false

namespace OpsComposer.Assets

open Domain (Uuid)
open Foundations Services

/-- The exceptions that the operations raise. -/
inductive AssetError where
  | validation (message : String)
  | notFound (message : String)
  | conflict (message : String)
  /-- Any exception that is no `OpsError`. -/
  | fault
  deriving DecidableEq

/-- A private key that the library has loaded, with its public key as an OpenSSH line. -/
inductive PrivateKey where
  | ed25519 (publicLine : Text)
  | rsa (keySize : Nat) (publicLine : Text)
  | ec (curve : Text) (keySize : Nat) (publicLine : Text)
  | other

/-- The keyring, and the library functions for private keys. -/
structure AssetPrimitives (Key : Type) where
  aead : Aead Key
  keyring : MasterKeyring Key
  /-- `load_ssh_private_key`, and else `load_pem_private_key`. -/
  loadPrivateKey : Text → Option Text → Option PrivateKey
  /-- The SHA-256 fingerprint of the key in an OpenSSH line. -/
  fingerprint : Text → Option Text
  /-- `_validate_address`. -/
  validateAddress : Text → Option Text

/-! ## Public configurations -/

/-- The settings of privilege escalation of a request. -/
structure Become where
  becomeEnabled : Bool
  becomeMethod : Text
  becomeUser : Text

/-- `_common_public_config`. -/
def commonPublicConfig (become : Become) : Except AssetError Config :=
  if become.becomeMethod ∈ [text "sudo", text "su", text "doas"] then
    .ok
      [(text "becomeEnabled", .bool become.becomeEnabled),
        (text "becomeMethod", .str become.becomeMethod),
        (text "becomeUser",
          .str (if become.becomeUser.strip = [] then text "root" else become.becomeUser.strip))]
  else .error (.validation "unsupported privilege escalation method")

/-- The algorithm, the size and the public key of a key that is accepted. -/
def PrivateKey.accepted : PrivateKey → Except AssetError (Text × Nat × Text)
  | .ed25519 publicLine => .ok (text "ssh-ed25519", 256, publicLine)
  | .rsa keySize publicLine =>
      if keySize < 2048 then
        .error (.validation "RSA private keys must contain at least 2048 bits")
      else .ok (text "ssh-rsa", keySize, publicLine)
  | .ec curve keySize publicLine =>
      if curve ∈ [text "secp256r1", text "secp384r1", text "secp521r1"] then
        .ok (text "ecdsa-" ++ curve, keySize, publicLine)
      else .error (.validation "unsupported SSH private key algorithm")
  | .other => .error (.validation "unsupported SSH private key algorithm")

/-- `_private_key_metadata`. -/
def privateKeyMetadata {Key : Type} (primitives : AssetPrimitives Key) (privateKey : Text)
    (passphrase : Option Text) : Except AssetError Config :=
  match primitives.loadPrivateKey privateKey passphrase with
  | none => .error (.validation "SSH private key or passphrase is invalid")
  | some key => do
      let (algorithm, bits, publicLine) ← key.accepted
      match primitives.fingerprint publicLine with
      | none => .error (.validation "SSH public key derivation failed")
      | some fingerprint =>
          .ok
            [(text "keyAlgorithm", .str algorithm), (text "keyBits", .int bits),
              (text "publicKeyFingerprint", .str fingerprint),
              (text "hasPassphrase", .bool passphrase.isSome)]

/-! ## Secrets -/

/-- A `str` of a request. -/
structure SecretText where
  value : Text
  valid : ∀ c ∈ value, c.isValidChar

/-- The entry of the public configuration that says whether there is one. -/
def hasBecomePassword (becomePassword : Option SecretText) : Text × Json :=
  (text "hasBecomePassword", .bool becomePassword.isSome)

/-- The dict with a member for each value that is given, under names in order. -/
def secretDict (names : List Text) (values : List (Option SecretText))
    (sorted : names.Pairwise (· < ·)) (valid : ∀ name ∈ names, ∀ c ∈ name, c.isValidChar) :
    SecretDict where
  fields := (names.zip values).filterMap fun member =>
    member.2.map fun secret => (member.1, secret.value)
  sorted := by
    refine List.Pairwise.sublist ?_ sorted
    clear sorted valid
    induction names generalizing values with
    | nil => exact List.Sublist.slnil
    | cons name names ih =>
        cases values with
        | nil => exact List.nil_sublist _
        | cons value values =>
            cases value with
            | none => exact (ih values).cons _
            | some secret => exact (ih values).cons_cons _
  valid := by
    intro field isField
    obtain ⟨⟨name, secret⟩, isMember, given⟩ := List.mem_filterMap.mp isField
    obtain ⟨value, rfl, rfl⟩ := Option.map_eq_some_iff.mp given
    exact ⟨valid _ (List.of_mem_zip isMember).1, value.valid⟩

/-- The secret of a password credential, in the order of its names. -/
def passwordSecret (password : SecretText) (becomePassword : Option SecretText) : SecretDict :=
  secretDict [text "becomePassword", text "password"] [becomePassword, some password]
    (by decide) (by decide)

/-- The secret of a key credential, in the order of its names. -/
def privateKeySecret (privateKey : SecretText) (passphrase becomePassword : Option SecretText) :
    SecretDict :=
  secretDict [text "becomePassword", text "passphrase", text "privateKey"]
    [becomePassword, passphrase, some privateKey] (by decide) (by decide)

/-! ## Programs -/

/-- What an operation returns. -/
inductive AssetAnswer where
  | credential (credential : Credential)
  | host (host : Host)
  | nothing

/-- A program of statements on the assets. -/
abbrev AssetProgram := Program AssetStatement AssetRow AssetError

/-- The credential that a query has returned. -/
def firstCredential? : List AssetRow → Option Credential
  | .credential row :: _ => some row
  | _ => none

/-- The host that a query has returned. -/
def firstHost? : List AssetRow → Option Host
  | .host row :: _ => some row
  | _ => none

/-- `get_credential`. -/
def getCredential (credentialId : Uuid) (forUpdate : Bool) :
    AssetProgram (Option Credential) :=
  .run (.getCredential credentialId forUpdate) fun rows => .done (firstCredential? rows)

open Program (orFail raiseIf ofAnswer)

section Credentials

variable {Key : Type} (primitives : AssetPrimitives Key)

/-- The fields that every credential has. -/
structure CredentialData where
  name : Text
  username : Text
  description : Text

/-- The row of a new credential. -/
def newCredential (data : CredentialData) (credentialType : CredentialType)
    (publicConfig : Config) (credentialId : Uuid) (now : Nat) : Credential where
  credentialId := credentialId
  name := data.name.strip
  credentialType := credentialType
  username := data.username.strip
  publicConfig := publicConfig
  currentVersion := 1
  lockVersion := 1
  enabled := true
  description := data.description.strip
  createdAt := now
  updatedAt := now

/-- `_create`. -/
def createSecret (data : CredentialData) (credentialType : CredentialType) (secret : SecretDict)
    (publicConfig : Config) (credentialId : Uuid) (nonce : Nonce) :
    AssetProgram AssetAnswer := do
  raiseIf (.validation "name and username are required")
    (data.name.strip.isEmpty || data.username.strip.isEmpty)
  let now ← Program.now
  let envelope ← orFail .fault
    (CredentialCipher.encrypt primitives.aead primitives.keyring nonce credentialId 1 secret)
  let rows ← Program.execute
    (.addCredential (newCredential data credentialType publicConfig credentialId now))
  let created ← orFail .fault (firstCredential? rows)
  let _ ← Program.execute (.addRevision ⟨credentialId, 1, now⟩)
  let _ ← Program.execute
    (.addEnvelope ⟨credentialId, 1, envelope, primitives.keyring.primaryVersion, now⟩)
  return .credential created

/-- `create`: a credential with a password. -/
def create (data : CredentialData) (password : SecretText) (becomePassword : Option SecretText)
    (become : Become) (credentialId : Uuid) (nonce : Nonce) : AssetProgram AssetAnswer := do
  raiseIf (.validation "password is required") password.value.isEmpty
  let publicConfig ← ofAnswer (commonPublicConfig become)
  createSecret primitives data .password (passwordSecret password becomePassword)
    (publicConfig.union [hasBecomePassword becomePassword]) credentialId nonce

/-- `create_ssh_private_key`: a credential with a private key. -/
def createSshPrivateKey (data : CredentialData) (privateKey : SecretText)
    (passphrase becomePassword : Option SecretText) (become : Become) (credentialId : Uuid)
    (nonce : Nonce) : AssetProgram AssetAnswer := do
  let metadata ← ofAnswer
    (privateKeyMetadata primitives privateKey.value (passphrase.map SecretText.value))
  let publicConfig ← ofAnswer (commonPublicConfig become)
  createSecret primitives data .sshPrivateKey
    (privateKeySecret privateKey passphrase becomePassword)
    ((publicConfig.union metadata).union [hasBecomePassword becomePassword]) credentialId nonce

/-- The candidate of the second update of a rotation. -/
def withPublicMetadata (publicMetadata : Config) (now : Nat) (rotated : Credential) : Credential :=
  { rotated with publicConfig := rotated.publicConfig.union publicMetadata, updatedAt := now }

/-- `_rotate`. -/
def rotateSecret (credentialId : Uuid) (expectedType : CredentialType) (secret : SecretDict)
    (publicMetadata : Config) (nonce : Nonce) : AssetProgram AssetAnswer := do
  let found ← getCredential credentialId true
  let credential ← orFail (.notFound "credential not found") found
  raiseIf (.validation "credential revision type cannot be changed")
    (credential.credentialType ≠ expectedType)
  let version := credential.currentVersion + 1
  let now ← Program.now
  let envelope ← orFail .fault
    (CredentialCipher.encrypt primitives.aead primitives.keyring nonce credentialId version secret)
  let _ ← Program.execute (.addRevision ⟨credentialId, version, now⟩)
  let _ ← Program.execute
    (.addEnvelope ⟨credentialId, version, envelope, primitives.keyring.primaryVersion, now⟩)
  let rows ← Program.execute (.setCurrentVersion credentialId version now)
  let rotated ← orFail (.notFound "credential not found") (firstCredential? rows)
  if publicMetadata.isEmpty then return .credential rotated
  else
    let updated := withPublicMetadata publicMetadata now rotated
    let rows ← Program.execute (.updateCredentialMetadata updated updated.lockVersion)
    return .credential ((firstCredential? rows).getD updated)

/-- `rotate`: a new password. -/
def rotate (credentialId : Uuid) (password : SecretText) (becomePassword : Option SecretText)
    (nonce : Nonce) : AssetProgram AssetAnswer := do
  raiseIf (.validation "password is required") password.value.isEmpty
  rotateSecret primitives credentialId .password (passwordSecret password becomePassword)
    [hasBecomePassword becomePassword] nonce

/-- `rotate_ssh_private_key`: a new private key. -/
def rotateSshPrivateKey (credentialId : Uuid) (privateKey : SecretText)
    (passphrase becomePassword : Option SecretText) (nonce : Nonce) :
    AssetProgram AssetAnswer := do
  let metadata ← ofAnswer
    (privateKeyMetadata primitives privateKey.value (passphrase.map SecretText.value))
  rotateSecret primitives credentialId .sshPrivateKey
    (privateKeySecret privateKey passphrase becomePassword)
    (metadata.union [hasBecomePassword becomePassword]) nonce

/-- The candidate of an update. -/
def editedCredential (data : CredentialData) (enabled : Bool) (common : Config) (now : Nat)
    (current : Credential) : Credential :=
  { current with
    name := data.name.strip
    username := data.username.strip
    description := data.description.strip
    enabled := enabled
    publicConfig := current.publicConfig.union common
    updatedAt := now }

/-- `update`: the metadata of a credential, at its expected lock version. -/
def update (credentialId : Uuid) (data : CredentialData) (enabled : Bool) (become : Become)
    (expectedLockVersion : Nat) : AssetProgram AssetAnswer := do
  let common ← ofAnswer (commonPublicConfig become)
  let now ← Program.now
  let found ← getCredential credentialId false
  let current ← orFail (.notFound "credential not found") found
  let rows ← Program.execute (.updateCredentialMetadata
    (editedCredential data enabled common now current) expectedLockVersion)
  let updated ← orFail (.conflict "credential was modified by another request")
    (firstCredential? rows)
  return .credential updated

/-- `get`. -/
def get (credentialId : Uuid) : AssetProgram AssetAnswer := do
  let found ← getCredential credentialId false
  let credential ← orFail (.notFound "credential not found") found
  return .credential credential

/-- `delete`: a credential that no host refers to. -/
def delete (credentialId : Uuid) : AssetProgram AssetAnswer := do
  let _ ← getCredential credentialId false
  let now ← Program.now
  let rows ← Program.execute (.deleteCredential credentialId now)
  raiseIf (.conflict "credential is missing or is still assigned to a host") (rows.length ≠ 1)
  return .nothing

end Credentials

section Hosts

variable {Key : Type} (primitives : AssetPrimitives Key)

/-- A letter or digit of ASCII. -/
def isNameChar (c : Nat) : Bool :=
  decide ((48 ≤ c ∧ c ≤ 57) ∨ (65 ≤ c ∧ c ≤ 90) ∨ (97 ≤ c ∧ c ≤ 122))

/-- `HOST_NAME`. -/
def isHostName : Text → Bool
  | [] => false
  | c :: rest =>
      isNameChar c && decide (rest.length ≤ 127) &&
        rest.all fun c => isNameChar c || (text "._-").contains c

/-- `RESERVED_VARIABLES`. -/
def reservedVariables : List Text :=
  [text "ansible_password", text "ansible_become_password", text "ansible_private_key_file",
    text "ansible_ssh_common_args", text "ansible_connection", text "ansible_host",
    text "ansible_port", text "ansible_user"]

/-- `_validate_variables`. -/
def validateVariables (hostVariables : Config) : Except AssetError Unit :=
  if hostVariables.any fun entry => decide (entry.1 ∈ reservedVariables) then
    .error (.validation "reserved Ansible connection variables are not allowed")
  else .ok ()

/-- What a request says about a host. -/
structure HostData where
  name : Text
  address : Text
  sshPort : Nat
  credentialId : Uuid
  pythonInterpreter : Option Text
  enabled : Bool
  description : Text
  hostVariables : Config

/-- `_validate_address`. -/
def validatedAddress (address : Text) : Except AssetError Text :=
  match primitives.validateAddress address with
  | none => .error (.validation "address must be an IPv4, IPv6, or FQDN")
  | some normalized => .ok normalized

/-- The credential of a host has to be there, and enabled. -/
def usableCredential (credentialId : Uuid) : AssetProgram Unit := do
  let found ← getCredential credentialId false
  raiseIf (.validation "credential is missing or disabled") (!found.any (·.enabled))

/-- `str_strip_whitespace` of `StrictDomainModel`. -/
def stripped (s : Text) : Text := trim isWhiteSpace s

/-- The names in a `dict[str, object]` of such a model are stripped too. -/
def strippedNames (config : Config) : Config :=
  config.foldl (fun kept entry => kept.union [(stripped entry.1, entry.2)]) []

/-- The row of a new host. -/
def newHost (data : HostData) (address : Text) (hostId : Uuid) (now : Nat) : Host where
  hostId := hostId
  name := stripped data.name
  address := stripped address
  sshPort := data.sshPort
  credentialId := data.credentialId
  pythonInterpreter := some (stripped
    ((data.pythonInterpreter.filter fun path => !path.isEmpty).getD (text "/usr/bin/python3")))
  enabled := data.enabled
  description := stripped data.description
  hostVariables := strippedNames data.hostVariables
  version := 1
  createdAt := now
  updatedAt := now

/-- `create_host`. -/
def createHost (data : HostData) (hostId : Uuid) : AssetProgram AssetAnswer := do
  raiseIf
    (.validation "host name may only contain letters, digits, dot, dash, and underscore")
    (!isHostName data.name)
  ofAnswer (validateVariables data.hostVariables)
  let now ← Program.now
  let address ← ofAnswer (validatedAddress primitives data.address)
  usableCredential data.credentialId
  let rows ← Program.execute (.addHost (newHost data address hostId now))
  let created ← orFail .fault (firstHost? rows)
  return .host created

/-- The candidate of an update. -/
def editedHost (data : HostData) (address : Text) (hostId : Uuid) (now : Nat) (current : Host) :
    Host :=
  { current with
    hostId := hostId
    name := stripped data.name
    address := stripped address
    sshPort := data.sshPort
    credentialId := data.credentialId
    pythonInterpreter := data.pythonInterpreter.map stripped
    enabled := data.enabled
    description := stripped data.description
    hostVariables := strippedNames data.hostVariables
    updatedAt := now }

/-- `update_host`, with the fields that the request leaves out taken from the host. -/
def updateHost (hostId : Uuid) (expectedVersion : Nat) (changes : Host → HostData) :
    AssetProgram AssetAnswer := do
  let rows ← Program.execute (.getHost hostId)
  let current ← orFail (.notFound "host not found") (firstHost? rows)
  let data := changes current
  let now ← Program.now
  ofAnswer (validateVariables data.hostVariables)
  raiseIf (.validation "invalid host name") (!isHostName data.name)
  let address ← ofAnswer (validatedAddress primitives data.address)
  usableCredential data.credentialId
  let rows ← Program.execute
    (.updateHost (editedHost data address hostId now current) expectedVersion)
  let updated ← orFail (.conflict "host was modified by another request") (firstHost? rows)
  return .host updated

/-- `delete_host`: a host that no run refers to. -/
def deleteHost (hostId : Uuid) (referenced : Bool) : AssetProgram AssetAnswer := do
  let _ ← Program.execute (.getHost hostId)
  let rows ← Program.execute (.deleteHost hostId referenced)
  raiseIf (.conflict "host is missing or referenced by execution history") (rows.length ≠ 1)
  return .nothing

end Hosts

/-! ## Calls -/

/-- A call of the service, with its arguments and what is drawn for it. -/
inductive AssetCall where
  | create (data : CredentialData) (password : SecretText) (becomePassword : Option SecretText)
      (become : Become) (credentialId : Uuid) (nonce : Nonce)
  | createSshPrivateKey (data : CredentialData) (privateKey : SecretText)
      (passphrase becomePassword : Option SecretText) (become : Become) (credentialId : Uuid)
      (nonce : Nonce)
  | rotate (credentialId : Uuid) (password : SecretText) (becomePassword : Option SecretText)
      (nonce : Nonce)
  | rotateSshPrivateKey (credentialId : Uuid) (privateKey : SecretText)
      (passphrase becomePassword : Option SecretText) (nonce : Nonce)
  | update (credentialId : Uuid) (data : CredentialData) (enabled : Bool) (become : Become)
      (expectedLockVersion : Nat)
  | get (credentialId : Uuid)
  | delete (credentialId : Uuid)
  | createHost (data : HostData) (hostId : Uuid)
  /-- `changes`: what the fields of the host are changed to. -/
  | updateHost (hostId : Uuid) (expectedVersion : Nat) (changes : Host → HostData)
  | deleteHost (hostId : Uuid) (referenced : Bool)

/-- The program of a call. -/
def AssetCall.program {Key : Type} (primitives : AssetPrimitives Key) :
    AssetCall → AssetProgram AssetAnswer
  | .create data password becomePassword become credentialId nonce =>
      Assets.create primitives data password becomePassword become credentialId nonce
  | .createSshPrivateKey data privateKey passphrase becomePassword become credentialId nonce =>
      Assets.createSshPrivateKey primitives data privateKey passphrase becomePassword become
        credentialId nonce
  | .rotate credentialId password becomePassword nonce =>
      Assets.rotate primitives credentialId password becomePassword nonce
  | .rotateSshPrivateKey credentialId privateKey passphrase becomePassword nonce =>
      Assets.rotateSshPrivateKey primitives credentialId privateKey passphrase becomePassword nonce
  | .update credentialId data enabled become expectedLockVersion =>
      Assets.update credentialId data enabled become expectedLockVersion
  | .get credentialId => Assets.get credentialId
  | .delete credentialId => Assets.delete credentialId
  | .createHost data hostId => Assets.createHost primitives data hostId
  | .updateHost hostId expectedVersion changes =>
      Assets.updateHost primitives hostId expectedVersion changes
  | .deleteHost hostId referenced => Assets.deleteHost hostId referenced

/-- The database service of credentials and hosts. -/
def assetService {Key : Type} (primitives : AssetPrimitives Key) :
    Service AssetStore AssetKey AssetRow AssetStatement AssetError AssetAnswer AssetCall where
  program := AssetCall.program primitives
  meaning := AssetStatement.meaning
  clash := AssetRow.clash
  constraint _ := true

/-- The database of the assets, with its transactions. -/
abbrev AssetDb := Db AssetStore AssetKey AssetRow AssetStatement AssetError AssetAnswer AssetCall

/-- A transaction of the assets. -/
abbrev AssetTxn := Txn AssetStore AssetKey AssetRow AssetStatement AssetError AssetAnswer AssetCall

/-- An event in the log of such a transaction. -/
abbrev AssetEvent := Event AssetStatement AssetRow

/-- The database as the callers step it. -/
abbrev AssetWorld :=
  DbWorld AssetStore AssetKey AssetRow AssetStatement AssetError AssetAnswer AssetCall

/-- Credentials and hosts as a transition system, from an empty database on. -/
def assetSystem {Key : Type} (primitives : AssetPrimitives Key) :
    System AssetWorld (DbAct AssetCall) :=
  (assetService primitives).system fun store => store = Table.empty

end OpsComposer.Assets
