import OpsComposer.Assets.Statements

/-!
# The logs with which the operations end

What a transaction that comes to its end has executed: one shape of the log for each
operation that writes (`Outcome`).  An operation that fails has no such log.
-/

set_option autoImplicit false

namespace OpsComposer.Assets

open Domain (Uuid)
open Foundations Services Program

section Outcomes

variable {Key : Type} (primitives : AssetPrimitives Key)

/-- The log of `_create`. -/
inductive Created (credentialType : CredentialType) (secret : SecretDict) (publicConfig : Config)
    (credentialId : Uuid) (nonce : Nonce) : List AssetEvent → Prop where
  | log {data : CredentialData} {now : Nat} {envelope : Bytes} {rows rows' rows'' : List AssetRow}
      {seen seen' seen'' : Nat}
      (encrypted : CredentialCipher.encrypt primitives.aead primitives.keyring nonce credentialId 1
        secret = some envelope) :
      Created credentialType secret publicConfig credentialId nonce
        [.clock now,
          .ran (.addCredential (newCredential data credentialType publicConfig credentialId now))
            rows seen,
          .ran (.addRevision ⟨credentialId, 1, now⟩) rows' seen',
          .ran (.addEnvelope ⟨credentialId, 1, envelope, primitives.keyring.primaryVersion, now⟩)
            rows'' seen'']

/-- The log of `_rotate`. -/
inductive Rotated (credentialType : CredentialType) (secret : SecretDict)
    (publicMetadata : Config) (credentialId : Uuid) (nonce : Nonce) : List AssetEvent → Prop where
  | log {found rows rows' rows'' last : List AssetRow} {credential rotated : Credential}
      {now : Nat} {envelope : Bytes} {s s' s'' s''' s'''' : Nat}
      (isFound : firstCredential? found = some credential)
      (type : credential.credentialType = credentialType)
      (encrypted : CredentialCipher.encrypt primitives.aead primitives.keyring nonce credentialId
        (credential.currentVersion + 1) secret = some envelope)
      (isRotated : firstCredential? rows'' = some rotated) :
      Rotated credentialType secret publicMetadata credentialId nonce
        [.ran (.getCredential credentialId true) found s,
          .clock now,
          .ran (.addRevision ⟨credentialId, credential.currentVersion + 1, now⟩) rows s',
          .ran (.addEnvelope ⟨credentialId, credential.currentVersion + 1, envelope,
            primitives.keyring.primaryVersion, now⟩) rows' s'',
          .ran (.setCurrentVersion credentialId (credential.currentVersion + 1) now) rows'' s''',
          .ran (.updateCredentialMetadata (withPublicMetadata publicMetadata now rotated)
            rotated.lockVersion) last s'''']

/-- The log of `update`. -/
inductive Updated (credentialId : Uuid) (expectedLockVersion : Nat) : List AssetEvent → Prop where
  | log {data : CredentialData} {enabled : Bool} {become : Become} {common : Config} {now : Nat}
      {found rows : List AssetRow} {current updated : Credential} {seen seen' : Nat}
      (configured : commonPublicConfig become = .ok common)
      (isFound : firstCredential? found = some current)
      (isUpdated : firstCredential? rows = some updated) :
      Updated credentialId expectedLockVersion
        [.clock now,
          .ran (.getCredential credentialId false) found seen,
          .ran (.updateCredentialMetadata (editedCredential data enabled common now current)
            expectedLockVersion) rows seen']

/-- The log of `delete`. -/
inductive Deleted (credentialId : Uuid) : List AssetEvent → Prop where
  | log {found rows : List AssetRow} {now seen seen' : Nat} (one : rows.length = 1) :
      Deleted credentialId
        [.ran (.getCredential credentialId false) found seen,
          .clock now,
          .ran (.deleteCredential credentialId now) rows seen']

/-- The logs of `create_host` and `update_host`. -/
inductive HostWritten : AssetCall → List AssetEvent → Prop where
  | created {data : HostData} {hostId : Uuid} {address : Text} {now : Nat}
      {found rows : List AssetRow} {credential : Credential} {seen seen' : Nat}
      (isFound : firstCredential? found = some credential) :
      HostWritten (.createHost data hostId)
        [.clock now,
          .ran (.getCredential data.credentialId false) found seen,
          .ran (.addHost (newHost data address hostId now)) rows seen']
  | updated {hostId : Uuid} {expectedVersion : Nat} {changes : Host → HostData} {address : Text}
      {now : Nat} {hosts found rows : List AssetRow} {current : Host} {credential : Credential}
      {seen seen' seen'' : Nat} (isFound : firstCredential? found = some credential) :
      HostWritten (.updateHost hostId expectedVersion changes)
        [.ran (.getHost hostId) hosts seen,
          .clock now,
          .ran (.getCredential (changes current).credentialId false) found seen',
          .ran (.updateHost (editedHost (changes current) address hostId now current)
            expectedVersion) rows seen'']

/-- The log of a call that has come to its end. -/
inductive Outcome : AssetCall → List AssetEvent → Prop where
  | create {data : CredentialData} {password : SecretText} {becomePassword : Option SecretText}
      {become : Become} {credentialId : Uuid} {nonce : Nonce} {common : Config}
      {log : List AssetEvent} (configured : commonPublicConfig become = .ok common)
      (created : Created primitives .password (passwordSecret password becomePassword)
        (common.union [hasBecomePassword becomePassword]) credentialId nonce log) :
      Outcome (.create data password becomePassword become credentialId nonce) log
  | createSshPrivateKey {data : CredentialData} {privateKey : SecretText}
      {passphrase becomePassword : Option SecretText} {become : Become} {credentialId : Uuid}
      {nonce : Nonce} {common metadata : Config} {log : List AssetEvent}
      (derived : privateKeyMetadata primitives privateKey.value
        (passphrase.map SecretText.value) = .ok metadata)
      (configured : commonPublicConfig become = .ok common)
      (created : Created primitives .sshPrivateKey
        (privateKeySecret privateKey passphrase becomePassword)
        ((common.union metadata).union [hasBecomePassword becomePassword]) credentialId nonce log) :
      Outcome (.createSshPrivateKey data privateKey passphrase becomePassword become credentialId
        nonce) log
  | rotate {credentialId : Uuid} {password : SecretText} {becomePassword : Option SecretText}
      {nonce : Nonce} {log : List AssetEvent}
      (rotated : Rotated primitives .password (passwordSecret password becomePassword)
        [hasBecomePassword becomePassword] credentialId nonce log) :
      Outcome (.rotate credentialId password becomePassword nonce) log
  | rotateSshPrivateKey {credentialId : Uuid} {privateKey : SecretText}
      {passphrase becomePassword : Option SecretText} {nonce : Nonce} {metadata : Config}
      {log : List AssetEvent}
      (derived : privateKeyMetadata primitives privateKey.value
        (passphrase.map SecretText.value) = .ok metadata)
      (rotated : Rotated primitives .sshPrivateKey
        (privateKeySecret privateKey passphrase becomePassword)
        (metadata.union [hasBecomePassword becomePassword]) credentialId nonce log) :
      Outcome (.rotateSshPrivateKey credentialId privateKey passphrase becomePassword nonce) log
  | update {credentialId : Uuid} {data : CredentialData} {enabled : Bool} {become : Become}
      {expectedLockVersion : Nat} {log : List AssetEvent}
      (updated : Updated credentialId expectedLockVersion log) :
      Outcome (.update credentialId data enabled become expectedLockVersion) log
  | get {credentialId : Uuid} {rows : List AssetRow} {seen : Nat} :
      Outcome (.get credentialId) [.ran (.getCredential credentialId false) rows seen]
  | delete {credentialId : Uuid} {log : List AssetEvent} (deleted : Deleted credentialId log) :
      Outcome (.delete credentialId) log
  | host {call : AssetCall} {log : List AssetEvent} (written : HostWritten call log) :
      Outcome call log
  | deleteHost {hostId : Uuid} {referenced : Bool} {rows rows' : List AssetRow}
      {seen seen' : Nat} :
      Outcome (.deleteHost hostId referenced)
        [.ran (.getHost hostId) rows seen, .ran (.deleteHost hostId referenced) rows' seen']

variable {primitives} {told : AssetStatement → List AssetRow → Prop}

theorem ends_createSecret (data : CredentialData) (credentialType : CredentialType)
    (secret : SecretDict) (publicConfig : Config) (credentialId : Uuid) (nonce : Nonce) :
    Ends told
      (fun _ => Created primitives credentialType secret publicConfig credentialId nonce) []
      (createSecret primitives data credentialType secret publicConfig credentialId nonce) := by
  refine ends_raiseIf fun _ => ends_clock fun now => ends_orFail fun envelope encrypted => ?_
  refine ends_run fun rows seen _ => ends_orFail fun created _ => ?_
  refine ends_run fun rows' seen' _ => ends_run fun rows'' seen'' _ => ends_done ?_
  exact .log encrypted

theorem ends_rotateSecret (credentialId : Uuid) (credentialType : CredentialType)
    (secret : SecretDict) (publicMetadata : Config) (some : publicMetadata.isEmpty = false)
    (nonce : Nonce) :
    Ends told
      (fun _ => Rotated primitives credentialType secret publicMetadata credentialId nonce) []
      (rotateSecret primitives credentialId credentialType secret publicMetadata nonce) := by
  refine ends_run fun found seen _ => ends_orFail fun credential isFound => ?_
  refine ends_raiseIf fun type => ends_clock fun now => ends_orFail fun envelope encrypted => ?_
  refine ends_run fun rows s' _ => ends_run fun rows' s'' _ => ends_run fun rows'' s''' _ => ?_
  refine ends_orFail fun rotated isRotated => ?_
  rw [some, if_neg Bool.false_ne_true]
  refine ends_run fun last s'''' _ => ends_done ?_
  exact .log isFound (by simpa using type) encrypted isRotated

/-- **Every call** that comes to its end has one of these logs. -/
theorem ends_program (call : AssetCall) :
    Ends told (fun _ => Outcome primitives call) [] (call.program primitives) := by
  cases call with
  | create data password becomePassword become credentialId nonce =>
      refine ends_raiseIf fun _ => ends_ofAnswer fun common configured => ?_
      exact (ends_createSecret data _ _ _ credentialId nonce).mono fun _ _ ends answer done =>
        .create configured (ends answer done)
  | createSshPrivateKey data privateKey passphrase becomePassword become credentialId nonce =>
      refine ends_ofAnswer fun metadata derived => ends_ofAnswer fun common configured => ?_
      exact (ends_createSecret data _ _ _ credentialId nonce).mono fun _ _ ends answer done =>
        .createSshPrivateKey derived configured (ends answer done)
  | rotate credentialId password becomePassword nonce =>
      refine ends_raiseIf fun _ => ?_
      exact (ends_rotateSecret credentialId _ _ _ rfl nonce).mono fun _ _ ends answer done =>
        .rotate (ends answer done)
  | rotateSshPrivateKey credentialId privateKey passphrase becomePassword nonce =>
      refine ends_ofAnswer fun metadata derived => ?_
      exact (ends_rotateSecret credentialId _ _ _ rfl nonce).mono fun _ _ ends answer done =>
        .rotateSshPrivateKey derived (ends answer done)
  | update credentialId data enabled become expectedLockVersion =>
      refine ends_ofAnswer fun common configured => ends_clock fun now => ?_
      refine ends_run fun found seen _ => ends_orFail fun current isFound => ?_
      refine ends_run fun rows seen' _ => ends_orFail fun updated isUpdated => ends_done ?_
      exact .update (.log configured isFound isUpdated)
  | get credentialId =>
      exact ends_run fun rows seen _ => ends_orFail fun credential _ => ends_done .get
  | delete credentialId =>
      refine ends_run fun found seen _ => ends_clock fun now => ends_run fun rows seen' _ => ?_
      refine ends_raiseIf fun one => ends_done ?_
      exact .delete (.log (by simpa using one))
  | createHost data hostId =>
      refine ends_raiseIf fun _ => ends_ofAnswer fun _ _ => ends_clock fun now => ?_
      refine ends_ofAnswer fun address _ => ends_run fun found seen _ => ?_
      refine ends_raiseIf fun usable => ?_
      refine ends_run fun rows seen' _ => ends_orFail fun created _ => ends_done ?_
      obtain ⟨credential, isFound, -⟩ := Option.any_eq_true _ _ |>.mp (by simpa using usable)
      exact .host (.created isFound)
  | updateHost hostId expectedVersion changes =>
      refine ends_run fun hosts seen _ => ends_orFail fun current _ => ends_clock fun now => ?_
      refine ends_ofAnswer fun _ _ => ends_raiseIf fun _ => ends_ofAnswer fun address _ => ?_
      refine ends_run fun found seen' _ => ends_raiseIf fun usable => ?_
      refine ends_run fun rows seen'' _ => ends_orFail fun updated _ => ends_done ?_
      obtain ⟨credential, isFound, -⟩ := Option.any_eq_true _ _ |>.mp (by simpa using usable)
      exact .host (.updated isFound)
  | deleteHost hostId referenced =>
      refine ends_run fun rows seen _ => ends_run fun rows' seen' _ => ?_
      exact ends_raiseIf fun _ => ends_done .deleteHost

end Outcomes

end OpsComposer.Assets
