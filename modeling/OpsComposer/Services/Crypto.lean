import OpsComposer.Domain.Ops
import OpsComposer.Foundations.JsonRoundTrip

/-!
# Master keys and envelopes

`MasterKeyring` and `CredentialCipher`.  AES-GCM is a parameter, of which the keyring uses
that opening undoes sealing under the same key, nonce and associated data, and that the
authentication tag has sixteen bytes.

An envelope is a nonce of twelve bytes, which the random source supplies, and what was
sealed.  The associated data are given by what their text is made of.
-/

set_option autoImplicit false

namespace OpsComposer.Services

open Domain Foundations

/-! ## The primitive -/

/-- The associated data of an envelope. -/
inductive Aad where
  /-- `ops-composer:credential:{credential_id}:{version}`. -/
  | credential (credentialId : Uuid) (version : Nat)
  /-- `ops-composer:{purpose}:{subject}:v1` for a subject that is an identifier. -/
  | record (purpose : String) (subject : Uuid)
  /-- `ops-composer:{purpose}:{subject}:v1` for a subject that is a name. -/
  | named (purpose subject : String)
  /-- `key-check:v1`. -/
  | legacyCheck
  deriving DecidableEq

/-- `AESGCM(key).encrypt` and `AESGCM(key).decrypt`. -/
structure Aead (Key : Type) where
  encrypt : Key → Bytes → Bytes → Aad → Bytes
  decrypt : Key → Bytes → Bytes → Aad → Option Bytes

namespace Aead

variable {Key : Type}

/-- What the code relies on. -/
structure Lawful (aead : Aead Key) : Prop where
  decrypt_encrypt : ∀ (key : Key) (nonce plaintext : Bytes) (aad : Aad),
    aead.decrypt key nonce (aead.encrypt key nonce plaintext aad) aad = some plaintext
  length_encrypt : ∀ (key : Key) (nonce plaintext : Bytes) (aad : Aad),
    (aead.encrypt key nonce plaintext aad).length = plaintext.length + 16

/-- Authentication: nothing that was sealed under one key can be opened under another. -/
def Authentic (aead : Aead Key) : Prop :=
  ∀ (key key' : Key) (nonce plaintext : Bytes) (aad : Aad), key ≠ key' →
    aead.decrypt key' nonce (aead.encrypt key nonce plaintext aad) aad = none

end Aead

/-! ## Keyrings -/

/-- A value that `os.urandom(12)` returns. -/
structure Nonce where
  bytes : Bytes
  length_bytes : bytes.length = 12

/-- Keys by their versions, one of which is the primary one. -/
structure MasterKeyring (Key : Type) where
  keys : List (Nat × Key)
  primaryVersion : Nat
  distinct : (keys.map Prod.fst).Nodup
  positive : ∀ version ∈ keys.map Prod.fst, 1 ≤ version
  primary_mem : primaryVersion ∈ keys.map Prod.fst

namespace MasterKeyring

variable {Key : Type} (aead : Aead Key) (keyring : MasterKeyring Key)

/-- The key of a version. -/
def key? (version : Nat) : Option Key := keyring.keys.lookup version

/-- `versions`, in ascending order. -/
def versions : List Nat := (keyring.keys.map Prod.fst).insertionSort (· ≤ ·)

/-- The keyring has a key of the version. -/
def hasVersion (version : Nat) : Bool := decide (version ∈ keyring.keys.map Prod.fst)

/-- `encrypt_with_aad`, where no key version means the primary one. -/
def encryptWithAad (nonce : Nonce) (plaintext : Bytes) (aad : Aad) (keyVersion : Option Nat) :
    Option (Bytes × Nat) :=
  let version := keyVersion.getD keyring.primaryVersion
  (keyring.key? version).map fun key =>
    (nonce.bytes ++ aead.encrypt key nonce.bytes plaintext aad, version)

/-- `decrypt_with_aad`: an envelope is a nonce, a ciphertext and its tag. -/
def decryptWithAad (envelope : Bytes) (aad : Aad) (keyVersion : Nat) : Option Bytes :=
  if envelope.length < 29 then none
  else (keyring.key? keyVersion).bind fun key =>
    aead.decrypt key (envelope.take 12) (envelope.drop 12) aad

/-- The plaintext of the envelope by which a key version is registered. -/
def checkText : Bytes := (text "ops-composer-master-key-check").map UInt8.ofNat

/-- `encrypt_check`. -/
def encryptCheck (nonce : Nonce) (keyVersion : Nat) : Option Bytes :=
  (keyring.encryptWithAad aead nonce checkText (.named "key-check" (toString keyVersion))
    (some keyVersion)).map Prod.fst

/-- `validate_check`: whether it returns. -/
def validateCheck (keyVersion : Nat) (envelope : Bytes) : Bool :=
  decide (keyring.decryptWithAad aead envelope (.named "key-check" (toString keyVersion)) keyVersion =
    some checkText)

/-- `validate_legacy_check`: whether it returns. -/
def validateLegacyCheck (keyVersion : Nat) (envelope : Bytes) : Bool :=
  decide (keyring.decryptWithAad aead envelope .legacyCheck keyVersion = some checkText)

variable {aead keyring}

variable {version : Nat}

theorem key?_eq_some {key : Key} :
    keyring.key? version = some key ↔ (version, key) ∈ keyring.keys := by
  have general : ∀ keys : List (Nat × Key), (keys.map Prod.fst).Nodup →
      (keys.lookup version = some key ↔ (version, key) ∈ keys) := by
    intro keys distinct
    induction keys with
    | nil => simp
    | cons entry keys ih =>
        obtain ⟨version', key'⟩ := entry
        obtain ⟨fresh, rest⟩ := List.nodup_cons.mp distinct
        rw [List.lookup_cons]
        by_cases same : version = version'
        · subst same
          have absent : (version, key) ∉ keys := fun member =>
            fresh (List.mem_map.mpr ⟨(version, key), member, rfl⟩)
          simp [absent, eq_comm]
        · simp [same, beq_false_of_ne same, ih rest]
  exact general keyring.keys keyring.distinct

theorem key?_isSome :
    (keyring.key? version).isSome ↔ version ∈ keyring.keys.map Prod.fst := by
  rw [Option.isSome_iff_exists, List.mem_map]
  constructor
  · rintro ⟨key, found⟩
    exact ⟨(version, key), key?_eq_some.mp found, rfl⟩
  · rintro ⟨⟨version', key⟩, member, rfl⟩
    exact ⟨key, key?_eq_some.mpr member⟩

theorem nodup_versions : keyring.versions.Nodup :=
  (List.perm_insertionSort ..).nodup_iff.mpr keyring.distinct

/-- **Opening undoes sealing.** -/
theorem decryptWithAad_encryptWithAad (lawful : aead.Lawful) {nonce : Nonce} {plaintext : Bytes}
    {aad : Aad} {keyVersion : Option Nat} {envelope : Bytes}
    (nonempty : plaintext ≠ [])
    (sealed : keyring.encryptWithAad aead nonce plaintext aad keyVersion =
      some (envelope, version)) :
    keyring.decryptWithAad aead envelope aad version = some plaintext := by
  obtain ⟨key, found, same⟩ := Option.map_eq_some_iff.mp sealed
  obtain ⟨rfl, rfl⟩ := Prod.mk.inj same
  have twelve := nonce.length_bytes
  have long : ¬ (nonce.bytes ++ aead.encrypt key nonce.bytes plaintext aad).length < 29 := by
    have some := List.length_pos_iff.mpr nonempty
    rw [List.length_append, lawful.length_encrypt, twelve]
    omega
  rw [decryptWithAad, if_neg long, found, Option.bind_some, List.take_left' twelve,
    List.drop_left' twelve, lawful.decrypt_encrypt]

/-- The version of an envelope is the one that was asked for. -/
theorem version_of_encryptWithAad {nonce : Nonce} {plaintext : Bytes} {aad : Aad}
    {keyVersion : Option Nat} {envelope : Bytes}
    (sealed : keyring.encryptWithAad aead nonce plaintext aad keyVersion =
      some (envelope, version)) : version = keyVersion.getD keyring.primaryVersion := by
  obtain ⟨_, -, same⟩ := Option.map_eq_some_iff.mp sealed
  exact (Prod.mk.inj same).2.symm

end MasterKeyring

/-! ## Credential secrets -/

/-- A `dict[str, str]`, in the order of its keys. -/
structure SecretDict where
  fields : List (Text × Text)
  sorted : (fields.map Prod.fst).Pairwise (· < ·)
  valid : ∀ field ∈ fields, (∀ c ∈ field.1, c.isValidChar) ∧ ∀ c ∈ field.2, c.isValidChar

namespace SecretDict

/-- `json.dumps(secret, sort_keys=True, separators=(",", ":"))`. -/
def dumps (secret : SecretDict) : Text :=
  Foundations.Json.dumps (.obj (secret.fields.map fun field => (field.1, .str field.2)))

/-- The text in a value. -/
def text? : Text × Foundations.Json → Option (Text × Text)
  | (key, .str value) => some (key, value)
  | _ => none

/-- The dict in a value whose members are all texts. -/
def ofJson? : Foundations.Json → Option SecretDict
  | .obj members =>
      (members.mapM text?).bind fun unordered =>
        let fields := sortedBy Prod.fst unordered
        if ordered : (fields.map Prod.fst).Pairwise (· < ·) ∧ ∀ field ∈ fields,
            (∀ c ∈ field.1, c.isValidChar) ∧ ∀ c ∈ field.2, c.isValidChar then
          some ⟨fields, ordered.1, ordered.2⟩
        else none
  | _ => none

theorem mapM_text? (fields : List (Text × Text)) :
    (fields.map fun field => (field.1, Foundations.Json.str field.2)).mapM text? = some fields := by
  induction fields with
  | nil => rfl
  | cons field fields ih => simp [text?, ih]

variable (secret : SecretDict)

theorem writable : Foundations.Json.Writable
    (.obj (secret.fields.map fun field => (field.1, .str field.2))) := by
  have members : ∀ fields : List (Text × Text), (∀ field ∈ fields,
      (∀ c ∈ field.1, c.isValidChar) ∧ ∀ c ∈ field.2, c.isValidChar) →
        Foundations.Json.WritableMembers (fields.map fun field => (field.1, .str field.2)) := by
    intro fields valid
    induction fields with
    | nil => trivial
    | cons field fields ih =>
        obtain ⟨key, value⟩ := valid field (List.mem_cons_self ..)
        exact ⟨key, value, ih fun other member => valid other (List.mem_cons_of_mem _ member)⟩
  refine ⟨?_, members secret.fields secret.valid⟩
  rw [List.map_map]
  exact secret.sorted

/-- The dict in the members that it has. -/
theorem ofJson?_obj :
    ofJson? (.obj (secret.fields.map fun field => (field.1, .str field.2))) = some secret := by
  have inOrder : sortedBy Prod.fst secret.fields = secret.fields := by
    refine sortedBy_of_pairwise ?_
    exact (List.pairwise_map.mp secret.sorted).imp le_of_lt
  simp only [ofJson?, mapM_text?, Option.bind_some, inOrder]
  exact dif_pos ⟨secret.sorted, secret.valid⟩

/-- **The text of a dict is read back.** -/
theorem ofJson?_loads_dumps :
    (Foundations.Json.loads secret.dumps).toOption.bind ofJson? = some secret := by
  rw [dumps, Foundations.Json.loads_dumps secret.writable]
  exact secret.ofJson?_obj

/-- The members of the text of a dict. -/
theorem mem_dumpsMembers {fields : List (Text × Text)} {member : Text × Text}
    (isMember : member ∈ Foundations.Json.dumpsMembers
      (fields.map fun field => (field.1, Foundations.Json.str field.2))) :
    ∃ field ∈ fields, member = (field.1, Foundations.Json.quoted field.2) := by
  induction fields with
  | nil => cases isMember
  | cons field fields ih =>
      rw [List.map_cons, Foundations.Json.dumpsMembers] at isMember
      rcases List.mem_cons.mp isMember with rfl | rest
      · exact ⟨field, List.mem_cons_self .., by rw [Foundations.Json.dumps]⟩
      · obtain ⟨other, member', same⟩ := ih rest
        exact ⟨other, List.mem_cons_of_mem _ member', same⟩

/-- The text of a dict is ASCII. -/
theorem dumps_ascii : ∀ c ∈ secret.dumps, c < 128 := by
  intro c member
  have ordered : ((secret.fields.map fun field =>
      (field.1, Foundations.Json.str field.2)).map Prod.fst).Pairwise (· < ·) := by
    rw [List.map_map]
    exact secret.sorted
  rw [dumps, Foundations.Json.dumps_obj ordered, List.mem_cons, List.mem_append,
    List.mem_singleton] at member
  rcases member with rfl | inside | rfl
  · decide
  · rcases Text.mem_join inside with rfl | ⟨part, isPart, within⟩
    · decide
    · obtain ⟨entry, isEntry, rfl⟩ := List.mem_map.mp isPart
      obtain ⟨field, isField, rfl⟩ := mem_dumpsMembers isEntry
      obtain ⟨key, value⟩ := secret.valid field isField
      rw [Foundations.Json.memberText, List.mem_append, List.mem_cons] at within
      rcases within with inKey | rfl | inValue
      · exact (Foundations.Json.quoted_ascii key).1 c inKey
      · decide
      · exact (Foundations.Json.quoted_ascii value).1 c inValue
  · decide

theorem encode_dumps :
    ∃ plaintext, Text.encode secret.dumps = some plaintext ∧ plaintext ≠ [] := by
  have encodes : (Text.encode secret.dumps).isSome :=
    Text.encode_isSome_iff.mpr fun c member => .inl ((secret.dumps_ascii c member).trans (by decide))
  obtain ⟨plaintext, encoded⟩ := Option.isSome_iff_exists.mp encodes
  refine ⟨plaintext, encoded, ?_⟩
  rintro rfl
  have decoded := Text.decode_encode encoded
  obtain ⟨c, rest, written, -⟩ := Foundations.Json.dumps_cons secret.writable
  rw [show Text.decode [] = some [] from rfl, dumps, written] at decoded
  cases decoded

end SecretDict

/-! ## Credential envelopes -/

namespace CredentialCipher

variable {Key : Type} (aead : Aead Key) (keyring : MasterKeyring Key)

/-- `encrypt`, under the primary key. -/
def encrypt (nonce : Nonce) (credentialId : Uuid) (version : Nat) (secret : SecretDict) :
    Option Bytes :=
  (Text.encode secret.dumps).bind fun plaintext =>
    (keyring.encryptWithAad aead nonce plaintext (.credential credentialId version) none).map
      Prod.fst

/-- `decrypt`: the secret of the revision, where the envelope was made for it. -/
def decrypt (credentialId : Uuid) (version : Nat) (envelope : Bytes) (keyVersion : Nat) :
    Option SecretDict :=
  (keyring.decryptWithAad aead envelope (.credential credentialId version) keyVersion).bind
    fun plaintext => (Text.decode plaintext).bind fun encoded =>
      (Foundations.Json.loads encoded).toOption.bind SecretDict.ofJson?

variable {aead keyring}

/-- An envelope can be made for every secret. -/
theorem exists_encrypt (nonce : Nonce) (credentialId : Uuid) (version : Nat) (secret : SecretDict) :
    ∃ envelope, encrypt aead keyring nonce credentialId version secret = some envelope := by
  obtain ⟨plaintext, encoded, -⟩ := secret.encode_dumps
  obtain ⟨key, found⟩ := Option.isSome_iff_exists.mp
    (MasterKeyring.key?_isSome.mpr keyring.primary_mem)
  simp [encrypt, encoded, MasterKeyring.encryptWithAad, found]

/-- **An envelope is opened to the secret that it was made for.** -/
theorem decrypt_encrypt (lawful : aead.Lawful) {nonce : Nonce} {credentialId : Uuid}
    {version : Nat} {secret : SecretDict} {envelope : Bytes}
    (made : encrypt aead keyring nonce credentialId version secret = some envelope) :
    decrypt aead keyring credentialId version envelope keyring.primaryVersion = some secret := by
  obtain ⟨plaintext, encoded, nonempty⟩ := secret.encode_dumps
  rw [encrypt, encoded, Option.bind_some] at made
  obtain ⟨⟨_, keyVersion⟩, sealed, rfl⟩ := Option.map_eq_some_iff.mp made
  obtain rfl : keyVersion = keyring.primaryVersion :=
    MasterKeyring.version_of_encryptWithAad sealed
  rw [decrypt, MasterKeyring.decryptWithAad_encryptWithAad lawful nonempty sealed,
    Option.bind_some, Text.decode_encode encoded, Option.bind_some, secret.ofJson?_loads_dumps]

end CredentialCipher

end OpsComposer.Services
