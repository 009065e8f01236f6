import OpsComposer.Assets.Hosts

/-!
# Revisions and metadata

The stored revisions of a credential are those up to its current version, each with an
envelope of the secret that was submitted for it, and the public metadata of a credential
describe the secret of its current version.

A rotation locks the credential before it reads the version, so that revisions follow each
other.  A metadata update writes a configuration that it has read without a lock; what it
writes is up to date since every change of the configuration raises the lock version, and
the lock version that the client has read is still the present one when it writes.
-/

set_option autoImplicit false

namespace OpsComposer.Assets

open Domain (Uuid)
open Foundations Services RowStore

/-! ## What metadata say -/

/-- A member of a secret. -/
def secretMember (secret : SecretDict) (name : Text) : Option Text :=
  (secret.fields.find? fun field => decide (field.1 = name)).map Prod.snd

/-- The names of the metadata that are derived from a secret. -/
def derivedNames : List Text :=
  [text "keyAlgorithm", text "keyBits", text "publicKeyFingerprint", text "hasPassphrase",
    text "hasBecomePassword"]

/-- The metadata of a secret. -/
def secretMetadata {Key : Type} (primitives : AssetPrimitives Key) (credentialType : CredentialType)
    (secret : SecretDict) : Config :=
  let become :=
    [(text "hasBecomePassword", Json.bool (secretMember secret (text "becomePassword")).isSome)]
  match credentialType with
  | .password => become
  | .sshPrivateKey =>
      match privateKeyMetadata primitives ((secretMember secret (text "privateKey")).getD [])
          (secretMember secret (text "passphrase")) with
      | .ok metadata => metadata.union become
      | .error _ => become

/-- The derived metadata in a public configuration are those of the secret. -/
def Describes {Key : Type} (primitives : AssetPrimitives Key) (credential : Credential)
    (secret : SecretDict) : Prop :=
  ∀ name ∈ derivedNames, credential.publicConfig.get? name =
    (secretMetadata primitives credential.credentialType secret).get? name

/-- Derived metadata that a secret does not have, no secret of the type has. -/
def Replaces {Key : Type} (primitives : AssetPrimitives Key) (credentialType : CredentialType)
    (secret : SecretDict) : Prop :=
  ∀ name ∈ derivedNames, (secretMetadata primitives credentialType secret).get? name = none →
    ∀ other, (secretMetadata primitives credentialType other).get? name = none

/-! ## Submitted secrets -/

/-- The credential, its type and the secret that a call submits. -/
def AssetCall.submitted? : AssetCall → Option (Uuid × CredentialType × SecretDict)
  | .create _ password becomePassword _ credentialId _ =>
      some (credentialId, .password, passwordSecret password becomePassword)
  | .createSshPrivateKey _ privateKey passphrase becomePassword _ credentialId _ =>
      some (credentialId, .sshPrivateKey, privateKeySecret privateKey passphrase becomePassword)
  | .rotate credentialId password becomePassword _ =>
      some (credentialId, .password, passwordSecret password becomePassword)
  | .rotateSshPrivateKey credentialId privateKey passphrase becomePassword _ =>
      some (credentialId, .sshPrivateKey, privateKeySecret privateKey passphrase becomePassword)
  | _ => none

/-- A committed transaction has added the revision, for a call that submits the secret. -/
def Submitted (db : AssetDb) (credentialId : Uuid) (version : Nat)
    (credentialType : CredentialType) (secret : SecretDict) : Prop :=
  ∃ id ∈ db.history, ∃ txn ∈ db.txns[id]?,
    txn.call.submitted? = some (credentialId, credentialType, secret) ∧
      Adds credentialId version txn.log

/-- The revisions and the metadata of a credential are in step. -/
structure InStep {Key : Type} (primitives : AssetPrimitives Key) (db : AssetDb)
    (store : AssetStore) (credentialId : Uuid) : Prop where
  /-- The stored revisions are those up to the current version. -/
  revisions : ∀ version,
    (∃ row, RowStore.lookup store (AssetKey.revision credentialId version) = some row) ↔
      ∃ credential : Credential, store.credential? credentialId = some credential ∧
        1 ≤ version ∧ version ≤ credential.currentVersion
  /-- Each has an envelope of the secret that was submitted for it, and the metadata
  describe the last one. -/
  secrets : ∀ credential : Credential, store.credential? credentialId = some credential →
    1 ≤ credential.currentVersion ∧
      ∀ version, 1 ≤ version → version ≤ credential.currentVersion →
        ∃ (envelope : SecretEnvelope) (secret : SecretDict),
          RowStore.lookup store (AssetKey.envelope credentialId version) =
              some (.envelope envelope) ∧
            Submitted db credentialId version credential.credentialType secret ∧
            CredentialCipher.decrypt primitives.aead primitives.keyring credentialId version
              envelope.encryptedSecret envelope.encryptionKeyVersion = some secret ∧
            (version = credential.currentVersion → Describes primitives credential secret)

/-- The lock version that an update passes is the one of its credential. -/
def Knows (call : AssetCall) (store : AssetStore) : Prop :=
  match call with
  | .update credentialId _ _ _ expectedLockVersion =>
      ∃ credential : Credential, store.credential? credentialId = some credential ∧
        credential.lockVersion = expectedLockVersion
  | _ => True

/-- The client of an update has read the lock version that it passes from a committed state. -/
def ReadVersions (world : AssetWorld) : DbAct AssetCall → Prop
  | .onDb (.begin call) =>
      ∃ n ≤ world.db.history.length, Knows call (world.db.stateAt Table.empty n)
  | _ => True

/-! ## Metadata and secrets -/

section Metadata

variable {Key : Type} {primitives : AssetPrimitives Key}

/-- The common configuration has no derived metadata. -/
theorem get?_common {become : Become} {common : Config}
    (configured : commonPublicConfig become = .ok common) {name : Text}
    (derived : name ∈ derivedNames) : common.get? name = none := by
  rw [commonPublicConfig] at configured
  split at configured
  · obtain rfl := Except.ok.inj configured
    simp only [derivedNames, List.mem_cons, List.not_mem_nil, or_false] at derived
    rcases derived with rfl | rfl | rfl | rfl | rfl <;> rfl
  · cases configured

theorem secretMember_password (password : SecretText) (becomePassword : Option SecretText) :
    secretMember (passwordSecret password becomePassword) (text "becomePassword") =
      becomePassword.map SecretText.value := by
  cases becomePassword <;> rfl

theorem secretMember_privateKey (privateKey : SecretText)
    (passphrase becomePassword : Option SecretText) :
    let secret := privateKeySecret privateKey passphrase becomePassword
    secretMember secret (text "privateKey") = some privateKey.value ∧
      secretMember secret (text "passphrase") = passphrase.map SecretText.value ∧
      secretMember secret (text "becomePassword") = becomePassword.map SecretText.value := by
  cases passphrase <;> cases becomePassword <;> exact ⟨rfl, rfl, rfl⟩

/-- The metadata of a password. -/
theorem secretMetadata_password (password : SecretText) (becomePassword : Option SecretText) :
    secretMetadata primitives .password (passwordSecret password becomePassword) =
      [hasBecomePassword becomePassword] := by
  rw [secretMetadata, secretMember_password, Option.isSome_map]
  rfl

variable {metadata : Config}

/-- The metadata of a private key. -/
theorem secretMetadata_privateKey {privateKey : SecretText}
    {passphrase becomePassword : Option SecretText}
    (derived : privateKeyMetadata primitives privateKey.value
      (passphrase.map SecretText.value) = .ok metadata) :
    secretMetadata primitives .sshPrivateKey
        (privateKeySecret privateKey passphrase becomePassword) =
      metadata.union [hasBecomePassword becomePassword] := by
  obtain ⟨isKey, isPassphrase, isBecome⟩ :=
    secretMember_privateKey privateKey passphrase becomePassword
  rw [secretMetadata, isKey, isPassphrase, isBecome, Option.isSome_map, Option.getD_some]
  simp only [derived]
  rfl

/-- All passwords have the same metadata names. -/
theorem replaces_password {secret : SecretDict} : Replaces primitives .password secret := by
  intro name derived none other
  simp only [derivedNames, List.mem_cons, List.not_mem_nil, or_false] at derived
  rcases derived with rfl | rfl | rfl | rfl | rfl
  · rfl
  · rfl
  · rfl
  · rfl
  · cases none

theorem eq_of_privateKeyMetadata {privateKey : Text} {passphrase : Option Text}
    (derived : privateKeyMetadata primitives privateKey passphrase = .ok metadata) :
    ∃ algorithm bits fingerprint, metadata =
      [(text "keyAlgorithm", .str algorithm), (text "keyBits", .int bits),
        (text "publicKeyFingerprint", .str fingerprint),
        (text "hasPassphrase", .bool passphrase.isSome)] := by
  rw [privateKeyMetadata] at derived
  cases loaded : primitives.loadPrivateKey privateKey passphrase with
  | none =>
      rw [loaded] at derived
      cases derived
  | some key =>
      cases accepted : key.accepted with
      | error error =>
          simp only [loaded, accepted] at derived
          cases derived
      | ok described =>
          obtain ⟨algorithm, bits, publicLine⟩ := described
          simp only [loaded, accepted] at derived
          cases shown : primitives.fingerprint publicLine with
          | none =>
              simp only [Except.bind, bind, shown] at derived
              cases derived
          | some fingerprint =>
              simp only [Except.bind, bind, shown] at derived
              exact ⟨algorithm, bits, fingerprint, (Except.ok.inj derived).symm⟩

/-- A private key that is accepted has all metadata. -/
theorem replaces_privateKey {privateKey : SecretText}
    {passphrase becomePassword : Option SecretText}
    (derived : privateKeyMetadata primitives privateKey.value
      (passphrase.map SecretText.value) = .ok metadata) :
    Replaces primitives .sshPrivateKey (privateKeySecret privateKey passphrase becomePassword) := by
  intro name isDerived none other
  obtain ⟨algorithm, bits, fingerprint, rfl⟩ := eq_of_privateKeyMetadata derived
  rw [secretMetadata_privateKey derived] at none
  simp only [derivedNames, List.mem_cons, List.not_mem_nil, or_false] at isDerived
  rcases isDerived with rfl | rfl | rfl | rfl | rfl <;> cases none

/-- A configuration that ends with the metadata of a secret describes it. -/
theorem describes_of_union {credential : Credential} {secret : SecretDict} {common : Config}
    (same : credential.publicConfig =
      common.union (secretMetadata primitives credential.credentialType secret))
    (none : ∀ name ∈ derivedNames, common.get? name = none) :
    Describes primitives credential secret := by
  intro name derived
  rw [same, Config.get?_union, none name derived, Option.or_none]

theorem union_assoc (common metadata become : Config) (name : Text) :
    ((common.union metadata).union become).get? name =
      (common.union (metadata.union become)).get? name := by
  rw [Config.get?_union, Config.get?_union, Config.get?_union, Config.get?_union, Option.or_assoc]

end Metadata

/-! ## Commits -/

/-- What a transaction commits, on the state after `i` commits. -/
inductive Commits {Key : Type} (primitives : AssetPrimitives Key) (start : AssetStore)
    (db : AssetDb) (i : Nat) (call : AssetCall) (log : List AssetEvent) :
    List (Write AssetKey AssetRow) → Prop where
  | created {credentialId : Uuid} {credential : Credential} {secret : SecretDict} {nonce : Nonce}
      {now : Nat} {envelope : Bytes} (key : credential.credentialId = credentialId)
      (first : credential.currentVersion = 1)
      (submitted : call.submitted? = some (credentialId, credential.credentialType, secret))
      (describes : Describes primitives credential secret)
      (encrypted : CredentialCipher.encrypt primitives.aead primitives.keyring nonce credentialId 1
        secret = some envelope)
      (free : RowStore.lookup (db.stateAt start i) (AssetKey.credential credentialId) = none)
      (adds : Adds credentialId 1 log) :
      Commits primitives start db i call log
        [.put (.credential credential), .put (.revision ⟨credentialId, 1, now⟩),
          .put (.envelope ⟨credentialId, 1, envelope, primitives.keyring.primaryVersion, now⟩)]
  | rotated {credentialId : Uuid} {credential middle last : Credential} {secret : SecretDict}
      {nonce : Nonce} {now : Nat} {envelope : Bytes}
      (isThere : (db.stateAt start i).credential? credentialId = some credential)
      (old : credential.credentialId = credentialId)
      (key : last.credentialId = credentialId) (same : middle.credentialId = credentialId)
      (type : last.credentialType = credential.credentialType)
      (next : last.currentVersion = credential.currentVersion + 1)
      (raised : credential.lockVersion < last.lockVersion)
      (submitted : call.submitted? = some (credentialId, credential.credentialType, secret))
      (config : last.publicConfig = credential.publicConfig.union
        (secretMetadata primitives credential.credentialType secret))
      (replaces : Replaces primitives credential.credentialType secret)
      (encrypted : CredentialCipher.encrypt primitives.aead primitives.keyring nonce credentialId
        (credential.currentVersion + 1) secret = some envelope)
      (adds : Adds credentialId (credential.currentVersion + 1) log) :
      Commits primitives start db i call log
        [.put (.credential credential),
          .put (.revision ⟨credentialId, credential.currentVersion + 1, now⟩),
          .put (.envelope ⟨credentialId, credential.currentVersion + 1, envelope,
            primitives.keyring.primaryVersion, now⟩),
          .put (.credential middle), .put (.credential last)]
  | updated {credentialId : Uuid} {current row last : Credential} {common : Config}
      {data : CredentialData} {enabled : Bool} {become : Become} {rows : List AssetRow} {seen : Nat}
      (expected : call = .update credentialId data enabled become row.lockVersion)
      (ran : .ran (.getCredential credentialId false) rows seen ∈ log) (past : seen ≤ i)
      (read : (db.stateAt start seen).credential? credentialId = some current)
      (isThere : (db.stateAt start i).credential? credentialId = some row)
      (key : last.credentialId = credentialId) (type : last.credentialType = row.credentialType)
      (version : last.currentVersion = row.currentVersion)
      (raised : row.lockVersion < last.lockVersion)
      (config : last.publicConfig = current.publicConfig.union common)
      (none : ∀ name ∈ derivedNames, common.get? name = none) :
      Commits primitives start db i call log [.put (.credential last)]
  | deleted {credentialId : Uuid} {row last : Credential}
      (isThere : (db.stateAt start i).credential? credentialId = some row)
      (key : last.credentialId = credentialId) (type : last.credentialType = row.credentialType)
      (version : last.currentVersion = row.currentVersion)
      (same : last.lockVersion = row.lockVersion) (config : last.publicConfig = row.publicConfig) :
      Commits primitives start db i call log [.put (.credential last)]
  | hosts {writes : List (Write AssetKey AssetRow)}
      (only : ∀ k ∈ touched AssetStore writes, ∃ hostId, k = .host hostId) :
      Commits primitives start db i call log writes

section Commits

variable {Key : Type} {primitives : AssetPrimitives Key} {db : AssetDb} {start : AssetStore}
  {i id : Nat} {txn : AssetTxn} {call : AssetCall} {log : List AssetEvent}

variable {store : AssetStore} {writes : List (Write AssetKey AssetRow)} {secret : SecretDict}
  {credentialId : Uuid}

theorem commits_of_rotated {credentialType : CredentialType} {nonce : Nonce}
    (plays : AssetPlays primitives start db i log)
    (rotated : Rotated primitives credentialType secret
      (secretMetadata primitives credentialType secret) credentialId nonce log)
    (submitted : call.submitted? = some (credentialId, credentialType, secret))
    (replaces : Replaces primitives credentialType secret) :
    Commits primitives start db i call log (logged AssetStatement.effects log) := by
  obtain ⟨credential, now, envelope, isThere, live, rfl, encrypted, adds, writes⟩ :=
    rotated_writes plays rotated
  have key : credential.credentialId = credentialId := only_isLive live
  rw [writes]
  refine .rotated isThere key key key rfl rfl ?_ submitted rfl replaces encrypted adds
  simp [withMetadata, withVersion]

/-- Every log of an operation commits one of the list. -/
theorem commits_of_plays (plays : AssetPlays primitives start db i log)
    (ended : Outcome primitives call log)
    (hosts : log.all sparesCredentials = true →
      Commits primitives start db i call log (logged AssetStatement.effects log)) :
    Commits primitives start db i call log (logged AssetStatement.effects log) := by
  cases ended with
  | @create _ password becomePassword _ credentialId _ common _ configured created =>
      obtain ⟨data, now, envelope, encrypted, free, adds, writes⟩ := created_writes plays created
      rw [writes]
      refine .created rfl rfl rfl ?_ encrypted free adds
      refine describes_of_union ?_ fun name derived => get?_common configured derived
      exact congrArg common.union (secretMetadata_password password becomePassword).symm
  | @createSshPrivateKey _ privateKey passphrase becomePassword _ _ _ common metadata _ derived
      configured created =>
      obtain ⟨data, now, envelope, encrypted, free, adds, writes⟩ := created_writes plays created
      rw [writes]
      refine .created rfl rfl rfl ?_ encrypted free adds
      intro name isDerived
      show ((common.union metadata).union [hasBecomePassword becomePassword]).get? name =
        (secretMetadata primitives .sshPrivateKey
          (privateKeySecret privateKey passphrase becomePassword)).get? name
      rw [secretMetadata_privateKey derived, union_assoc, Config.get?_union,
        get?_common configured isDerived, Option.or_none]
  | @rotate _ password becomePassword _ _ rotated =>
      have metadata : secretMetadata primitives .password (passwordSecret password becomePassword) =
        [hasBecomePassword becomePassword] := secretMetadata_password password becomePassword
      rw [← metadata] at rotated
      exact commits_of_rotated plays rotated rfl replaces_password
  | rotateSshPrivateKey derived rotated =>
      rw [← secretMetadata_privateKey derived] at rotated
      exact commits_of_rotated plays rotated rfl (replaces_privateKey derived)
  | update updated =>
      obtain ⟨data, enabled, become, common, now, current, row, rows, seen, configured, ran, past,
        read, isThere, live, rfl, writes⟩ := updated_writes plays updated
      rw [writes]
      exact .updated rfl ran past read isThere (only_isLive live) rfl rfl (Nat.lt_succ_self _) rfl
        fun name derived => get?_common configured derived
  | get => exact hosts rfl
  | delete deleted =>
      obtain ⟨now, row, isThere, writes⟩ := deleted_writes plays deleted
      rw [writes]
      obtain ⟨credential, same, key⟩ :=
        AssetStore.credential_of_lookup (AssetStore.credential?_eq_some.mp isThere)
      obtain rfl := AssetRow.credential.inj same
      exact .deleted isThere key rfl rfl rfl rfl
  | host written =>
      cases written with
      | created _ | updated _ => exact hosts rfl
  | deleteHost => exact hosts rfl

/-! ## Lock versions -/

/-- The row of a credential comes later than another one: its lock version has been raised,
or its configuration is still the same. -/
def Later (row row' : Credential) : Prop :=
  row.lockVersion < row'.lockVersion ∨
    (row'.lockVersion = row.lockVersion ∧ row'.publicConfig = row.publicConfig)

theorem Later.trans {first second third : Credential} (one : Later first second)
    (two : Later second third) : Later first third := by
  rcases one with less | ⟨same, config⟩ <;> rcases two with less' | ⟨same', config'⟩
  · exact .inl (less.trans less')
  · exact .inl (same' ▸ less)
  · exact .inl (same ▸ less')
  · exact .inr ⟨same'.trans same, config'.trans config⟩

/-- **Frame.** The writes of a commit leave the keys of other credentials. -/
theorem credential?_frame (free : AssetKey.credential credentialId ∉ touched AssetStore writes) :
    (applyAll store writes).credential? credentialId = store.credential? credentialId :=
  congrArg (Option.bind · _) (lookup_applyAll_of_not_mem store free)

/-- **One commit** makes the row of a credential later. -/
theorem later_commit (commits : Commits primitives start db i call log writes) {row : Credential}
    (before : (db.stateAt start i).credential? credentialId = some row) :
    ∃ row' : Credential,
      (applyAll (db.stateAt start i) writes).credential? credentialId = some row' ∧
        Later row row' := by
  have stays : AssetKey.credential credentialId ∉ touched AssetStore writes →
      ∃ row' : Credential,
        (applyAll (db.stateAt start i) writes).credential? credentialId = some row' ∧
          Later row row' := fun free =>
    ⟨row, (credential?_frame free).trans before, .inr ⟨rfl, rfl⟩⟩
  cases commits with
  | @created created credential secret nonce now envelope key first submitted describes encrypted
      free adds =>
      refine stays fun member => ?_
      obtain rfl : created = credentialId := by
        simpa [touched, written, RowStore.key, AssetRow.key, key, eq_comm] using member
      rw [AssetStore.credential?_eq_some.mp before] at free
      cases free
  | @rotated rotated credential middle last secret nonce now envelope isThere old key same type next
      raised submitted config replaces encrypted adds =>
      by_cases isIt : rotated = credentialId
      · subst isIt
        obtain rfl : credential = row := Option.some.inj (isThere.symm.trans before)
        exact ⟨last, credential?_put [_, _, _, _] key, .inl raised⟩
      · refine stays fun member => isIt ?_
        simpa [touched, written, RowStore.key, AssetRow.key, key, old, same, eq_comm] using member
  | @updated updated current changed last common data enabled become rows seen expected ran past
      read isThere key type version raised config none =>
      by_cases isIt : updated = credentialId
      · subst isIt
        obtain rfl : changed = row := Option.some.inj (isThere.symm.trans before)
        exact ⟨last, credential?_put [] key, .inl raised⟩
      · refine stays fun member => isIt ?_
        simpa [touched, written, RowStore.key, AssetRow.key, key, eq_comm] using member
  | @deleted deleted changed last isThere key type version unchanged config =>
      by_cases isIt : deleted = credentialId
      · subst isIt
        obtain rfl : changed = row := Option.some.inj (isThere.symm.trans before)
        exact ⟨last, credential?_put [] key, .inr ⟨unchanged, config⟩⟩
      · refine stays fun member => isIt ?_
        simpa [touched, written, RowStore.key, AssetRow.key, key, eq_comm] using member
  | hosts only =>
      refine stays fun member => ?_
      obtain ⟨hostId, same⟩ := only _ member
      cases same

/-! ## One commit -/

/-- The credential that a key is about. -/
def ownerOf : AssetKey → Option Uuid
  | .credential credentialId => some credentialId
  | .revision credentialId _ => some credentialId
  | .envelope credentialId _ => some credentialId
  | .host _ => none

/-- The writes that leave all rows of a credential leave it in step. -/
theorem InStep.frame (inStep : InStep primitives db store credentialId)
    (free : ∀ k ∈ touched AssetStore writes, ownerOf k ≠ some credentialId) :
    InStep primitives db (applyAll store writes) credentialId := by
  have same : ∀ k, ownerOf k = some credentialId →
      RowStore.lookup (applyAll store writes) k = RowStore.lookup store k := fun k owner =>
    lookup_applyAll_of_not_mem store fun member => free k member owner
  have sameCredential : (applyAll store writes).credential? credentialId =
      store.credential? credentialId :=
    credential?_frame fun member => free _ member rfl
  constructor
  · intro version
    rw [same (.revision credentialId version) rfl, sameCredential]
    exact inStep.revisions version
  · intro credential isThere
    rw [sameCredential] at isThere
    obtain ⟨positive, each⟩ := inStep.secrets credential isThere
    refine ⟨positive, fun version from_ upTo => ?_⟩
    rw [same (.envelope credentialId version) rfl]
    exact each version from_ upTo

theorem inStep_created {credential : Credential} {now : Nat} {envelope : Bytes}
    (key : credential.credentialId = credentialId) (first : credential.currentVersion = 1)
    (submitted : Submitted db credentialId 1 credential.credentialType secret)
    (describes : Describes primitives credential secret)
    (decrypts : CredentialCipher.decrypt primitives.aead primitives.keyring credentialId 1 envelope
      primitives.keyring.primaryVersion = some secret)
    (free : RowStore.lookup store (AssetKey.credential credentialId) = none)
    (inStep : InStep primitives db store credentialId) :
    InStep primitives db (applyAll store
      [.put (.credential credential), .put (.revision ⟨credentialId, 1, now⟩),
        .put (.envelope ⟨credentialId, 1, envelope, primitives.keyring.primaryVersion, now⟩)])
      credentialId := by
  have none_before : ∀ version,
      RowStore.lookup store (AssetKey.revision credentialId version) = none := by
    intro version
    refine Option.eq_none_iff_forall_ne_some.mpr fun row isThere => ?_
    obtain ⟨old, found, -⟩ := (inStep.revisions version).mp ⟨row, isThere⟩
    rw [AssetStore.credential?_eq_some.mp found] at free
    cases free
  have isThere : (applyAll store
      [.put (.credential credential), .put (.revision ⟨credentialId, 1, now⟩),
        .put (.envelope ⟨credentialId, 1, envelope, primitives.keyring.primaryVersion, now⟩)]
      ).credential? credentialId = some credential := by
    simp [AssetStore.credential?_eq_some, lookup_apply, written, left, RowStore.key, AssetRow.key,
      key]
  constructor
  · intro version
    simp only [isThere, Option.some.injEq, exists_eq_left', first]
    simp only [applyAll_cons, applyAll_nil, lookup_apply, written, left, RowStore.key, AssetRow.key]
    simp [none_before]
    omega
  · intro found same
    obtain rfl := Option.some.inj (isThere.symm.trans same)
    refine ⟨first.ge, fun version from_ upTo => ?_⟩
    obtain rfl : version = 1 := by omega
    refine ⟨⟨credentialId, 1, envelope, primitives.keyring.primaryVersion, now⟩, secret, ?_,
      submitted, decrypts, fun _ => describes⟩
    simp [lookup_apply, written, left, RowStore.key, AssetRow.key]

theorem inStep_rotated
    {credential middle last : Credential} {now : Nat} {envelope : Bytes}
    (isThere : store.credential? credentialId = some credential)
    (key : last.credentialId = credentialId)
    (type : last.credentialType = credential.credentialType)
    (next : last.currentVersion = credential.currentVersion + 1)
    (config : last.publicConfig = credential.publicConfig.union
      (secretMetadata primitives credential.credentialType secret))
    (replaces : Replaces primitives credential.credentialType secret)
    (submitted : Submitted db credentialId (credential.currentVersion + 1)
      credential.credentialType secret)
    (decrypts : CredentialCipher.decrypt primitives.aead primitives.keyring credentialId
      (credential.currentVersion + 1) envelope primitives.keyring.primaryVersion = some secret)
    (inStep : InStep primitives db store credentialId) :
    InStep primitives db (applyAll store
      [.put (.credential credential),
        .put (.revision ⟨credentialId, credential.currentVersion + 1, now⟩),
        .put (.envelope ⟨credentialId, credential.currentVersion + 1, envelope,
          primitives.keyring.primaryVersion, now⟩),
        .put (.credential middle), .put (.credential last)]) credentialId := by
  obtain ⟨positive, each⟩ := inStep.secrets credential isThere
  have isThere' : (applyAll store
      [.put (.credential credential),
        .put (.revision ⟨credentialId, credential.currentVersion + 1, now⟩),
        .put (.envelope ⟨credentialId, credential.currentVersion + 1, envelope,
          primitives.keyring.primaryVersion, now⟩),
        .put (.credential middle), .put (.credential last)]).credential? credentialId = some last :=
    credential?_put [_, _, _, _] key
  constructor
  · intro version
    have before := inStep.revisions version
    simp only [isThere, Option.some.injEq, exists_eq_left'] at before
    simp only [isThere', Option.some.injEq, exists_eq_left', next]
    simp only [applyAll_cons, applyAll_nil, lookup_apply, written, left, RowStore.key, AssetRow.key]
    by_cases isNew : credential.currentVersion + 1 = version
    · simp [isNew]
      omega
    · simp [isNew, before]
      omega
  · intro found found'
    obtain rfl := Option.some.inj (isThere'.symm.trans found')
    refine ⟨next ▸ Nat.succ_pos _, fun version from_ upTo => ?_⟩
    by_cases isNew : credential.currentVersion + 1 = version
    · subst isNew
      refine ⟨⟨credentialId, credential.currentVersion + 1, envelope,
        primitives.keyring.primaryVersion, now⟩, secret, ?_, type ▸ submitted, decrypts, ?_⟩
      · simp [lookup_apply, written, left, RowStore.key, AssetRow.key]
      · intro _ name derived
        rw [type, config, Config.get?_union]
        cases shown : (secretMetadata primitives credential.credentialType secret).get? name with
        | some value => rfl
        | none =>
            obtain ⟨_, earlier, -, -, -, describes⟩ := each _ positive le_rfl
            rw [Option.none_or, describes rfl name derived]
            exact replaces name derived shown earlier
    · obtain ⟨kept, earlier, stored, submitted', decrypts', -⟩ :=
        each version from_ (by omega)
      refine ⟨kept, earlier, ?_, type ▸ submitted', decrypts', fun isLast => ?_⟩
      · simpa [lookup_apply, written, left, RowStore.key, AssetRow.key, isNew] using stored
      · omega

/-- A row that is written with the version and the derived metadata that it had. -/
theorem inStep_rewritten {row last : Credential}
    (isThere : store.credential? credentialId = some row) (key : last.credentialId = credentialId)
    (type : last.credentialType = row.credentialType)
    (version : last.currentVersion = row.currentVersion)
    (config : ∀ name ∈ derivedNames, last.publicConfig.get? name = row.publicConfig.get? name)
    (inStep : InStep primitives db store credentialId) :
    InStep primitives db (applyAll store [.put (.credential last)]) credentialId := by
  have isThere' : (applyAll store [.put (.credential last)]).credential? credentialId = some last :=
    credential?_put [] key
  have same : ∀ k, k ≠ AssetKey.credential credentialId →
      RowStore.lookup (applyAll store [.put (.credential last)]) k = RowStore.lookup store k := by
    intro k other
    refine lookup_applyAll_of_not_mem store fun member => other ?_
    simpa [touched, written, RowStore.key, AssetRow.key, key] using member
  obtain ⟨positive, each⟩ := inStep.secrets row isThere
  constructor
  · intro number
    have before := inStep.revisions number
    simp only [isThere, Option.some.injEq, exists_eq_left'] at before
    simp only [isThere', Option.some.injEq, exists_eq_left', version]
    rw [same _ (by simp)]
    exact before
  · intro found found'
    obtain rfl := Option.some.inj (isThere'.symm.trans found')
    refine ⟨version ▸ positive, fun number from_ upTo => ?_⟩
    rw [same _ (by simp), version, type]
    obtain ⟨envelope, secret, stored, submitted, decrypts, describes⟩ :=
      each number from_ (version ▸ upTo)
    refine ⟨envelope, secret, stored, submitted, decrypts, fun isLast name derived => ?_⟩
    rw [config name derived, describes isLast name derived, type]

/-- **One commit** keeps every credential in step, when an update writes a configuration that
is still the present one. -/
theorem inStep_commit (lawful : primitives.aead.Lawful)
    (commits : Commits primitives start db i call log writes)
    (submits : ∀ credentialId version credentialType secret,
      call.submitted? = some (credentialId, credentialType, secret) →
        Adds credentialId version log → Submitted db credentialId version credentialType secret)
    (fresh : ∀ credentialId data enabled become rows seen (current row : Credential),
      call = .update credentialId data enabled become row.lockVersion →
        .ran (.getCredential credentialId false) rows seen ∈ log → seen ≤ i →
          (db.stateAt start seen).credential? credentialId = some current →
            (db.stateAt start i).credential? credentialId = some row →
              current.publicConfig = row.publicConfig)
    (inStep : ∀ credentialId, InStep primitives db (db.stateAt start i) credentialId)
    (credentialId : Uuid) :
    InStep primitives db (applyAll (db.stateAt start i) writes) credentialId := by
  have frame : (∀ k ∈ touched AssetStore writes, ownerOf k ≠ some credentialId) →
      InStep primitives db (applyAll (db.stateAt start i) writes) credentialId :=
    (inStep credentialId).frame
  cases commits with
  | @created created credential secret nonce now envelope key first submitted describes encrypted
      free adds =>
      by_cases isIt : created = credentialId
      · subst isIt
        exact inStep_created key first (submits _ _ _ _ submitted adds) describes
          (CredentialCipher.decrypt_encrypt lawful encrypted) free (inStep created)
      · refine frame fun k member owner => isIt ?_
        simp only [touched, List.map_cons, List.map_nil, List.mem_cons, List.not_mem_nil, or_false]
          at member
        rcases member with rfl | rfl | rfl <;>
          simpa [written, RowStore.key, AssetRow.key, ownerOf, key] using owner
  | @rotated rotated credential middle last secret nonce now envelope isThere old key same type next
      raised submitted config replaces encrypted adds =>
      by_cases isIt : rotated = credentialId
      · subst isIt
        exact inStep_rotated isThere key type next config replaces
          (submits _ _ _ _ submitted adds) (CredentialCipher.decrypt_encrypt lawful encrypted)
          (inStep rotated)
      · refine frame fun k member owner => isIt ?_
        simp only [touched, List.map_cons, List.map_nil, List.mem_cons, List.not_mem_nil, or_false]
          at member
        rcases member with rfl | rfl | rfl | rfl | rfl <;>
          simpa [written, RowStore.key, AssetRow.key, ownerOf, old, key, same] using owner
  | @updated updated current row last common data enabled become rows seen expected ran past read
      isThere key type version raised config none =>
      by_cases isIt : updated = credentialId
      · subst isIt
        refine inStep_rewritten isThere key type version (fun name derived => ?_) (inStep updated)
        rw [config, Config.get?_union, none name derived, Option.none_or,
          fresh updated data enabled become rows seen current row expected ran past read isThere]
      · refine frame fun k member owner => isIt ?_
        obtain rfl := List.mem_singleton.mp member
        simpa [written, RowStore.key, AssetRow.key, ownerOf, key] using owner
  | @deleted deleted row last isThere key type version unchanged config =>
      by_cases isIt : deleted = credentialId
      · subst isIt
        exact inStep_rewritten isThere key type version (fun name _ => by rw [config])
          (inStep deleted)
      · refine frame fun k member owner => isIt ?_
        obtain rfl := List.mem_singleton.mp member
        simpa [written, RowStore.key, AssetRow.key, ownerOf, key] using owner
  | hosts only =>
      refine frame fun k member owner => ?_
      obtain ⟨hostId, rfl⟩ := only k member
      cases owner

end Commits

/-! ## In every run -/

section Runs

variable {Key : Type} {primitives : AssetPrimitives Key} {db : AssetDb}
  {told : AssetStatement → List AssetRow → Prop}

/-- The chronicle of a run from the empty database, with what the logs say. -/
structure Account (primitives : AssetPrimitives Key) (told : AssetStatement → List AssetRow → Prop)
    (db : AssetDb) : Prop where
  chronicle : Db.Chronicle (assetService primitives) AssetStatement.effects Table.empty db
  points : Db.AtPoints told (fun call log program =>
    ∀ answer, program = .done answer → Outcome primitives call log) db
  informed : Db.Informed Table.empty Knows db

/-- The commit after `i` others. -/
theorem Account.commits (account : Account primitives told db) {i id : Nat}
    (next : db.history[i]? = some id) :
    ∃ txn : AssetTxn, db.txns[id]? = some txn ∧
      Commits primitives Table.empty db i txn.call txn.log (logged AssetStatement.effects txn.log) ∧
      db.stateAt Table.empty (i + 1) =
        applyAll (db.stateAt Table.empty i) (logged AssetStatement.effects txn.log) := by
  obtain ⟨txn, found, done⟩ := account.chronicle.txn_of_history next
  obtain ⟨-, -, ended⟩ := account.chronicle.outcome account.points found done
  refine ⟨txn, found, ?_, ?_⟩
  · refine commits_of_plays (account.chronicle.plays next found done) ended fun spares => ?_
    refine .hosts fun k touched => host_of_held account.chronicle found spares ?_
    rw [Txn.holds, account.chronicle.writes id txn found]
    exact touched
  · rw [Db.Chronicle.stateAt_commit next found, Txn.view, account.chronicle.writes id txn found]

/-- The row of a credential becomes later and later. -/
theorem Account.later (account : Account primitives told db) {n m : Nat} (le : n ≤ m)
    (bound : m ≤ db.history.length) {credentialId : Uuid} {row : Credential}
    (before : (db.stateAt Table.empty n : AssetStore).credential? credentialId = some row) :
    ∃ row' : Credential,
      (db.stateAt Table.empty m : AssetStore).credential? credentialId = some row' ∧
        Later row row' := by
  induction m, le using Nat.le_induction with
  | base => exact ⟨row, before, .inr ⟨rfl, rfl⟩⟩
  | succ m le ih =>
      obtain ⟨middle, found, later⟩ := ih (Nat.le_of_succ_le bound)
      obtain ⟨txn, -, commits, after⟩ :=
        account.commits (List.getElem?_eq_getElem (Nat.lt_of_succ_le bound))
      obtain ⟨row', found', later'⟩ := later_commit commits found
      exact ⟨row', after ▸ found', later.trans later'⟩

/-- **Every committed state** has all credentials in step. -/
theorem Account.inStep (lawful : primitives.aead.Lawful) (account : Account primitives told db)
    {n : Nat} (bound : n ≤ db.history.length) (credentialId : Uuid) :
    InStep primitives db (db.stateAt Table.empty n) credentialId := by
  induction n generalizing credentialId with
  | zero =>
      constructor
      · intro version
        constructor
        · rintro ⟨row, isThere⟩
          cases isThere
        · rintro ⟨credential, isThere, -⟩
          cases isThere
      · intro credential isThere
        cases isThere
  | succ n ih =>
      have next := List.getElem?_eq_getElem (Nat.lt_of_succ_le bound)
      obtain ⟨txn, found, commits, after⟩ := account.commits next
      rw [after]
      refine inStep_commit lawful commits ?_ ?_ (ih (Nat.le_of_succ_le bound)) credentialId
      · intro _ _ _ _ submitted adds
        exact ⟨_, List.getElem_mem _, txn, found, submitted, adds⟩
      · intro credentialId data enabled become rows seen current row expected ran past read isThere
        obtain ⟨b, -, known, sees, -⟩ := account.informed _ txn found
        rw [expected] at known
        obtain ⟨first, found', version⟩ := known
        obtain ⟨current', read', one⟩ := account.later (sees _ _ _ ran)
          (past.trans (Nat.le_of_succ_le bound)) found'
        obtain rfl : current = current' := Option.some.inj (read.symm.trans read')
        obtain ⟨row', isThere', two⟩ := account.later past (Nat.le_of_succ_le bound) read
        obtain rfl : row = row' := Option.some.inj (isThere.symm.trans isThere')
        -- the lock version has not been raised since the client has read it
        have notLess : first.lockVersion ≤ current.lockVersion := by
          rcases one with less | ⟨same, -⟩
          · exact less.le
          · exact same.ge
        rcases two with less | ⟨-, config⟩
        · omega
        · exact config.symm

/-- In every run in which the clients of updates have read lock versions, there is such an
account. -/
theorem account_of_reachable {world : AssetWorld}
    (reached : ((assetSystem primitives).restrict ReadVersions).Reachable world) :
    Account primitives (fun _ _ => True) world.db := by
  have only : ∀ store : AssetStore, store = Table.empty → store = Table.empty := fun _ => id
  have begins : ∀ (world : AssetWorld) (call : AssetCall),
      ReadVersions world (.onDb (.begin call)) →
        ∃ n ≤ world.db.history.length, Knows call (world.db.stateAt Table.empty n) :=
    fun _ _ => id
  obtain ⟨chronicled, informed⟩ := (Service.inductive_informed tellable
    (fun _ _ _ _ _ _ => trivial) ends_program only begins).of_reachable reached
  obtain ⟨_, rfl, chronicle⟩ := chronicled.chronicle
  exact ⟨chronicle, chronicled.points, informed⟩

end Runs

instance (store : AssetStore) : ∀ call : AssetCall, Decidable (Knows call store)
  | .update credentialId _ _ _ expectedLockVersion =>
      decidable_of_iff (((store.credential? credentialId).any fun credential =>
        decide (credential.lockVersion = expectedLockVersion)) = true)
        (by simp [Knows, Option.any_eq_true])
  | .create _ _ _ _ _ _ | .createSshPrivateKey _ _ _ _ _ _ _ | .rotate _ _ _ _
  | .rotateSshPrivateKey _ _ _ _ _ | .get _ | .delete _ | .createHost _ _ | .updateHost _ _ _
  | .deleteHost _ _ => isTrue trivial

instance (world : AssetWorld) : ∀ act : DbAct AssetCall, Decidable (ReadVersions world act)
  | .tick _ => isTrue trivial
  | .onDb (.begin call) => inferInstanceAs (Decidable
      (∃ n ≤ world.db.history.length, Knows call (world.db.stateAt Table.empty n)))
  | .onDb (.clock _ _) | .onDb (.snapshot _) | .onDb (.perform _) | .onDb (.check _)
  | .onDb (.commit _) | .onDb (.abort _) => isTrue trivial

end OpsComposer.Assets
