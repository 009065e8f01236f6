import OpsComposer.Foundations.JsonUnicode
import OpsComposer.Services.Encryption
import OpsComposer.Services.RunSpecs

/-!
# The bytes of an encryption context

`MasterKeyring` and `CredentialCipher` once more, with the associated data as the
bytes that they are: `_aad` makes them of a purpose and a subject and refuses some
of both, `CredentialCipher` makes its own.

* `aadBytes`, `credentialAad` — the two ways;
* `encryptBytes`, `decryptBytes` and what is built on them;
* `Context` — what an envelope can be made for, its value, and how it is encrypted
  and decrypted.
-/

set_option autoImplicit false

namespace OpsComposer.Encryption

open Foundations Services
open RunSpecs (uuidText)

/-- `uuid.int`. -/
abbrev UuidInt := Fin (2 ^ 128)

/-! ## Associated data -/

/-- `_aad(purpose, subject)`. -/
def aadBytes (purpose subject : Text) : Option Bytes :=
  if purpose = [] ∨ subject = [] ∨ 0 ∈ purpose ∨ 0 ∈ subject then none
  else (text "ops-composer:" ++ purpose ++ 58 :: subject ++ text ":v1").encode

/-- The associated data of `CredentialCipher`. -/
def credentialAad (credentialId : UuidInt) (version : Nat) : Option Bytes :=
  (text "ops-composer:credential:" ++ uuidText credentialId ++ 58 :: Json.natText version).encode

/-! ## Sealing and opening -/

/-- `AESGCM(key).encrypt` and `AESGCM(key).decrypt`. -/
structure AesGcm (Key : Type) where
  encrypt : Key → Bytes → Bytes → Bytes → Bytes
  decrypt : Key → Bytes → Bytes → Bytes → Option Bytes

/-- What every key of an ideal cipher does: what was sealed is opened under the
key and the associated data of its sealing, and under no others.  Sealing adds
sixteen bytes at least. -/
structure AesGcm.Ideal {Key : Type} (gcm : AesGcm Key) : Prop where
  decrypt_encrypt : ∀ (key : Key) (nonce plaintext aad : Bytes),
    gcm.decrypt key nonce (gcm.encrypt key nonce plaintext aad) aad = some plaintext
  length_encrypt : ∀ (key : Key) (nonce plaintext aad : Bytes),
    plaintext.length + 16 ≤ (gcm.encrypt key nonce plaintext aad).length
  authentic : ∀ (key key' : Key) (nonce plaintext aad aad' : Bytes), (key', aad') ≠ (key, aad) →
    gcm.decrypt key' nonce (gcm.encrypt key nonce plaintext aad) aad' = none

/-- A secret of `generate_totp_secret()`, in base 32. -/
structure TotpSecret where
  letters : Text
  nonempty : letters ≠ []
  ascii : ∀ c ∈ letters, c < 128

/-- `secret.encode("ascii")`. -/
def TotpSecret.bytes (secret : TotpSecret) : Bytes := secret.letters.map UInt8.ofNat

section Keyring

variable {Key : Type} (gcm : AesGcm Key) (keyring : MasterKeyring Key)

/-- `key_version or self.primary_version`. -/
def chosenVersion (keyVersion : Option Nat) : Nat :=
  match keyVersion with
  | none | some 0 => keyring.primaryVersion
  | some version => version

/-- `encrypt_with_aad`. -/
def encryptWithAad (nonce : Nonce) (plaintext aad : Bytes) (keyVersion : Option Nat) :
    Option (Bytes × Nat) :=
  let version := chosenVersion keyring keyVersion
  (keyring.key? version).map fun key =>
    (nonce.bytes ++ gcm.encrypt key nonce.bytes plaintext aad, version)

/-- `decrypt_with_aad`. -/
def decryptWithAad (envelope aad : Bytes) (keyVersion : Nat) : Option Bytes :=
  if envelope.length < 29 then none
  else (keyring.key? keyVersion).bind fun key =>
    gcm.decrypt key (envelope.take 12) (envelope.drop 12) aad

/-- `encrypt_bytes`. -/
def encryptBytes (nonce : Nonce) (purpose subject : Text) (plaintext : Bytes)
    (keyVersion : Option Nat) : Option (Bytes × Nat) :=
  (aadBytes purpose subject).bind fun aad => encryptWithAad gcm keyring nonce plaintext aad keyVersion

/-- `decrypt_bytes`. -/
def decryptBytes (purpose subject : Text) (envelope : Bytes) (keyVersion : Nat) : Option Bytes :=
  (aadBytes purpose subject).bind fun aad => decryptWithAad gcm keyring envelope aad keyVersion

/-- `encrypt_json`, for a dict of texts. -/
def encryptJson (nonce : Nonce) (purpose subject : Text) (value : SecretDict)
    (keyVersion : Option Nat) : Option (Bytes × Nat) :=
  (Json.dumpsUnicode (.obj (Json.ofTexts value.fields))).bind fun written =>
    written.encode.bind fun plaintext =>
      encryptBytes gcm keyring nonce purpose subject plaintext keyVersion

/-- `decrypt_json`, and the check that the values are texts. -/
def decryptJson (purpose subject : Text) (envelope : Bytes) (keyVersion : Nat) :
    Option SecretDict :=
  (decryptBytes gcm keyring purpose subject envelope keyVersion).bind fun plaintext =>
    (Text.decode plaintext).bind fun encoded =>
      (Json.loads encoded).toOption.bind SecretDict.ofJson?

/-- `CredentialCipher.encrypt`. -/
def encryptCredential (nonce : Nonce) (credentialId : UuidInt) (version : Nat)
    (secret : SecretDict) : Option (Bytes × Nat) :=
  secret.dumps.encode.bind fun plaintext => (credentialAad credentialId version).bind fun aad =>
    encryptWithAad gcm keyring nonce plaintext aad none

/-- `CredentialCipher.decrypt`. -/
def decryptCredential (credentialId : UuidInt) (version : Nat) (envelope : Bytes)
    (keyVersion : Option Nat) : Option SecretDict :=
  (credentialAad credentialId version).bind fun aad =>
    (decryptWithAad gcm keyring envelope aad (chosenVersion keyring keyVersion)).bind
      fun plaintext => (Text.decode plaintext).bind fun encoded =>
        (Json.loads encoded).toOption.bind SecretDict.ofJson?

/-! ## Contexts -/

/-- What an envelope is made for. -/
inductive Context where
  | credential (credentialId : UuidInt) (version : Nat)
  | totp (userId : UuidInt)
  | runParameters (runId : UuidInt)
  | systemSecret (secretName : Text)
  | keyCheck (keyVersion : Nat)

namespace Context

/-- The associated data of a context. -/
def aad : Context → Option Bytes
  | .credential credentialId version => credentialAad credentialId version
  | .totp userId => aadBytes (text "totp") (uuidText userId)
  | .runParameters runId => aadBytes (text "run-parameters") (uuidText runId)
  | .systemSecret secretName => aadBytes (text "system-secret") secretName
  | .keyCheck keyVersion => aadBytes (text "key-check") (Json.natText keyVersion)

/-- What is kept in an envelope of the context. -/
def Value : Context → Type
  | .credential _ _ => SecretDict
  | .totp _ => TotpSecret
  | .runParameters _ => SecretDict
  | .systemSecret _ => Pepper
  | .keyCheck _ => Unit

/-- What is read of an envelope: the bytes of a secret are returned as they are. -/
def Opened : Context → Type
  | .credential _ _ => SecretDict
  | .totp _ => Bytes
  | .runParameters _ => SecretDict
  | .systemSecret _ => Bytes
  | .keyCheck _ => Unit

/-- The value as it is read. -/
def opened : (context : Context) → context.Value → context.Opened
  | .credential _ _, secret => secret
  | .totp _, secret => TotpSecret.bytes secret
  | .runParameters _, values => values
  | .systemSecret _, secret => Pepper.bytes secret
  | .keyCheck _, checked => checked

/-- The envelope for a value, and the version of its key.  A credential is sealed
under the primary key, the check of a key under the key itself. -/
def encrypt (nonce : Nonce) (keyVersion : Option Nat) :
    (context : Context) → context.Value → Option (Bytes × Nat)
  | .credential credentialId version, secret =>
      encryptCredential gcm keyring nonce credentialId version secret
  | .totp userId, secret =>
      encryptBytes gcm keyring nonce (text "totp") (uuidText userId)
        (TotpSecret.bytes secret) keyVersion
  | .runParameters runId, values =>
      encryptJson gcm keyring nonce (text "run-parameters") (uuidText runId) values keyVersion
  | .systemSecret secretName, secret =>
      encryptBytes gcm keyring nonce (text "system-secret") secretName secret.bytes keyVersion
  | .keyCheck version, _ =>
      encryptBytes gcm keyring nonce (text "key-check") (Json.natText version)
        MasterKeyring.checkText (some version)

/-- What is in an envelope. -/
def decrypt (envelope : Bytes) (keyVersion : Nat) :
    (context : Context) → Option context.Opened
  | .credential credentialId version =>
      decryptCredential gcm keyring credentialId version envelope (some keyVersion)
  | .totp userId =>
      decryptBytes gcm keyring (text "totp") (uuidText userId) envelope keyVersion
  | .runParameters runId =>
      decryptJson gcm keyring (text "run-parameters") (uuidText runId) envelope keyVersion
  | .systemSecret secretName =>
      decryptBytes gcm keyring (text "system-secret") secretName envelope keyVersion
  | .keyCheck version =>
      (decryptBytes gcm keyring (text "key-check") (Json.natText version) envelope keyVersion).bind
        fun plaintext => if plaintext = MasterKeyring.checkText then some () else none

end Context

end Keyring

end OpsComposer.Encryption
