import OpsComposer.Foundations.Framing
import OpsComposer.Services.EncryptionContexts

/-!
# Envelopes cannot be swapped

The associated data of a context are the text `ops-composer:`, a purpose without
a colon, a colon, and what follows.  So the purpose can be read off them, and with
it what follows, from which the identifier, the version or the name can be read
in their turn (`aad_injective`).  An ideal cipher then tells the contexts apart.

* `uuidText_injective` — the identifiers of a context;
* `Context.aad_eq_some` — the one form of the associated data;
* `decrypt_encrypt`, `decrypt_other` — an envelope in its own context, and in others;
* `envelopes_apart` — all of it.
-/

set_option autoImplicit false

namespace OpsComposer.Encryption

open Foundations Services
open RunSpecs (uuidText)

/-! ## Numbers and identifiers -/

theorem hexDigit_injective {d e : Nat} (small : d < 16) (small' : e < 16)
    (same : Json.hexDigit d = Json.hexDigit e) : d = e := by
  have read := Json.hexValue?_hexDigit small
  rw [same, Json.hexValue?_hexDigit small'] at read
  exact (Option.some.inj read).symm

/-- The digits of a number to the base 16 determine what is left of it below a power. -/
theorem mod_pow_eq_of_digits {n m : Nat} (count : Nat)
    (same : ∀ i < count, n / 16 ^ i % 16 = m / 16 ^ i % 16) : n % 16 ^ count = m % 16 ^ count := by
  induction count with
  | zero => rw [Nat.pow_zero, Nat.mod_one, Nat.mod_one]
  | succ count ih =>
      rw [Nat.mod_pow_succ, Nat.mod_pow_succ, ih fun i small => same i (by omega),
        same count (Nat.lt_succ_self count)]

/-- The thirty-two digits of an identifier. -/
def uuidDigits (id : Nat) : Text :=
  (List.range 32).map fun i => Json.hexDigit (id / 16 ^ (31 - i) % 16)

theorem uuidDigits_hexDigit {id c : Nat} (member : c ∈ uuidDigits id) :
    ∃ d < 16, c = Json.hexDigit d := by
  obtain ⟨i, -, rfl⟩ := List.mem_map.mp member
  exact ⟨_, Nat.mod_lt _ (by omega), rfl⟩

theorem hexDigit_letter {d : Nat} (small : d < 16) :
    48 ≤ Json.hexDigit d ∧ Json.hexDigit d ≠ 58 := by
  unfold Json.hexDigit
  split <;> omega

/-- The groups of digits between the hyphens. -/
def uuidGroups (id : Nat) : List Text :=
  let digits := uuidDigits id
  [digits.take 8, (digits.drop 8).take 4, (digits.drop 12).take 4, (digits.drop 16).take 4,
    digits.drop 20]

theorem uuidText_eq (id : Nat) : uuidText id = Text.join 45 (uuidGroups id) := rfl

/-- The next group of a text and the ones behind it. -/
theorem take_append_drop_drop (s : Text) (start size : Nat) :
    (s.drop start).take size ++ s.drop (start + size) = s.drop start := by
  rw [← List.drop_drop, List.take_append_drop]

theorem flatten_uuidGroups (id : Nat) : (uuidGroups id).flatten = uuidDigits id := by
  simp only [uuidGroups, List.flatten_cons, List.flatten_nil, List.append_nil]
  rw [take_append_drop_drop _ 16 4, take_append_drop_drop _ 12 4, take_append_drop_drop _ 8 4,
    List.take_append_drop]

theorem mem_uuidDigits_of_group {id c : Nat} {group : Text} (isGroup : group ∈ uuidGroups id)
    (member : c ∈ group) : c ∈ uuidDigits id := by
  rw [← flatten_uuidGroups]
  exact List.mem_flatten.mpr ⟨group, isGroup, member⟩

theorem split_uuidText (id : Nat) : (uuidText id).split 45 = uuidGroups id := by
  refine Text.split_join ?_ (List.cons_ne_nil _ _)
  intro group isGroup member
  obtain ⟨d, small, same⟩ := uuidDigits_hexDigit (mem_uuidDigits_of_group isGroup member)
  have letter := hexDigit_letter small
  omega

/-- **An identifier is known from its text.** -/
theorem uuidText_injective {id id' : UuidInt} (same : uuidText id = uuidText id') : id = id' := by
  have groups := congrArg (Text.split 45) same
  rw [split_uuidText, split_uuidText] at groups
  have digits := congrArg List.flatten groups
  rw [flatten_uuidGroups, flatten_uuidGroups] at digits
  have each : ∀ i < 32, id.val / 16 ^ i % 16 = id'.val / 16 ^ i % 16 := by
    intro i small
    have at_ := List.map_inj_left.mp digits (31 - i) (List.mem_range.mpr (by omega))
    have back : 31 - (31 - i) = i := by omega
    rw [back] at at_
    exact hexDigit_injective (Nat.mod_lt _ (by omega)) (Nat.mod_lt _ (by omega)) at_
  have rest := mod_pow_eq_of_digits 32 each
  have large : (16 : Nat) ^ 32 = 2 ^ 128 := by norm_num
  rw [large, Nat.mod_eq_of_lt id.isLt, Nat.mod_eq_of_lt id'.isLt] at rest
  exact Fin.ext rest

/-- No colon is in the text of an identifier. -/
theorem colon_not_mem_uuidText (id : Nat) : 58 ∉ uuidText id := by
  intro member
  rw [uuidText_eq] at member
  rcases Text.mem_join member with hyphen | ⟨group, isGroup, inside⟩
  · cases hyphen
  · obtain ⟨d, small, same⟩ := uuidDigits_hexDigit (mem_uuidDigits_of_group isGroup inside)
    exact (hexDigit_letter small).2 same.symm

/-! ## Contexts -/

namespace Context

/-- The purpose of a context, between the first two colons. -/
def purpose : Context → Text
  | .credential _ _ => text "credential"
  | .totp _ => text "totp"
  | .runParameters _ => text "run-parameters"
  | .systemSecret _ => text "system-secret"
  | .keyCheck _ => text "key-check"

/-- What follows the purpose. -/
def subject : Context → Text
  | .credential credentialId version => uuidText credentialId ++ 58 :: Json.natText version
  | .totp userId => uuidText userId ++ text ":v1"
  | .runParameters runId => uuidText runId ++ text ":v1"
  | .systemSecret secretName => secretName ++ text ":v1"
  | .keyCheck keyVersion => Json.natText keyVersion ++ text ":v1"

end Context

theorem encode_of_aadBytes {purpose subject : Text} {aad : Bytes}
    (made : aadBytes purpose subject = some aad) :
    (text "ops-composer:" ++ (purpose ++ 58 :: (subject ++ text ":v1"))).encode = some aad := by
  unfold aadBytes at made
  split at made
  · cases made
  · rwa [List.append_assoc, List.append_assoc, List.cons_append] at made

/-- **The associated data of every context have one form.** -/
theorem Context.aad_eq_some {context : Context} {aad : Bytes} (made : context.aad = some aad) :
    (text "ops-composer:" ++ (context.purpose ++ 58 :: context.subject)).encode = some aad := by
  cases context with
  | credential credentialId version =>
      rw [Context.aad, credentialAad] at made
      rw [← made, List.append_assoc]
      rfl
  | totp userId | runParameters runId | systemSecret secretName | keyCheck keyVersion =>
      exact encode_of_aadBytes made

theorem Context.colon_not_mem_purpose (context : Context) : 58 ∉ context.purpose := by
  have plain : ∀ purpose ∈ ["credential", "totp", "run-parameters", "system-secret",
      "key-check"].map text, 58 ∉ purpose := by decide
  apply plain
  cases context <;> simp [Context.purpose]

/-- A context is known from its purpose and what follows it. -/
theorem Context.eq_of_parts {context other : Context} (purposes : context.purpose = other.purpose)
    (subjects : context.subject = other.subject) : context = other := by
  -- the purposes of two families differ
  cases context <;> cases other <;>
    first | exact absurd (show text _ = text _ from purposes) (by decide) | skip
  case credential.credential id version id' version' =>
    obtain ⟨ids, versions⟩ := Framing.eq_of_append_cons (colon_not_mem_uuidText id)
      (colon_not_mem_uuidText id') subjects
    rw [uuidText_injective ids, Json.natText_injective versions]
  case totp.totp id id' =>
    rw [uuidText_injective (List.append_cancel_right subjects)]
  case runParameters.runParameters id id' =>
    rw [uuidText_injective (List.append_cancel_right subjects)]
  case systemSecret.systemSecret name name' =>
    rw [List.append_cancel_right subjects]
  case keyCheck.keyCheck version version' =>
    rw [Json.natText_injective (List.append_cancel_right subjects)]

/-- **Different contexts have different associated data.** -/
theorem aad_injective {context other : Context} {aad : Bytes} (made : context.aad = some aad)
    (made' : other.aad = some aad) : context = other := by
  have texts := Text.encode_injective (Context.aad_eq_some made) (Context.aad_eq_some made')
  obtain ⟨purposes, subjects⟩ := Framing.eq_of_append_cons context.colon_not_mem_purpose
    other.colon_not_mem_purpose (List.append_cancel_left texts)
  exact Context.eq_of_parts purposes subjects

/-! ## Values -/

namespace Context

/-- The plaintext of a value. -/
def write : (context : Context) → context.Value → Option Bytes
  | .credential _ _, secret => SecretDict.dumps secret |>.encode
  | .totp _, secret => some (TotpSecret.bytes secret)
  | .runParameters _, values =>
      (Json.dumpsUnicode (.obj (Json.ofTexts (SecretDict.fields values)))).bind Text.encode
  | .systemSecret _, secret => some (Pepper.bytes secret)
  | .keyCheck _, _ => some MasterKeyring.checkText

/-- The dict of texts in a plaintext. -/
def readDict (plaintext : Bytes) : Option SecretDict :=
  (Text.decode plaintext).bind fun encoded =>
    (Json.loads encoded).toOption.bind SecretDict.ofJson?

/-- What is read of a plaintext. -/
def read : (context : Context) → Bytes → Option context.Opened
  | .credential _ _, plaintext => readDict plaintext
  | .totp _, plaintext => some plaintext
  | .runParameters _, plaintext => readDict plaintext
  | .systemSecret _, plaintext => some plaintext
  | .keyCheck _, plaintext => if plaintext = MasterKeyring.checkText then some () else none

/-- The version of the key that a value is encrypted with. -/
def writtenVersion (keyVersion : Option Nat) : Context → Option Nat
  | .credential _ _ => none
  | .keyCheck version => some version
  | _ => keyVersion

/-- The version of the key that is looked up to decrypt: the cipher of credentials
takes zero for the primary one. -/
def effectiveVersion {Key : Type} (keyring : MasterKeyring Key) (keyVersion : Nat) : Context → Nat
  | .credential _ _ => chosenVersion keyring (some keyVersion)
  | _ => keyVersion

end Context

/-- A text that is not empty has bytes. -/
theorem ne_nil_of_encode {s : Text} {plaintext : Bytes} (some : s ≠ [])
    (encoded : s.encode = .some plaintext) : plaintext ≠ [] := by
  rintro rfl
  have decoded := Text.decode_encode encoded
  rw [show Text.decode [] = .some [] from rfl] at decoded
  exact some (Option.some.inj decoded).symm

/-- **What is written for a value is read back to it**, and is not empty. -/
theorem Context.read_write {context : Context} {value : context.Value} {plaintext : Bytes}
    (written : context.write value = some plaintext) :
    plaintext ≠ [] ∧ context.read plaintext = some (context.opened value) := by
  cases context with
  | credential credentialId version =>
      obtain ⟨encoded, same, nonempty⟩ := SecretDict.encode_dumps value
      obtain rfl := Option.some.inj (same.symm.trans written)
      refine ⟨nonempty, ?_⟩
      rw [Context.read, Context.readDict, Text.decode_encode written, Option.bind_some]
      exact SecretDict.ofJson?_loads_dumps value
  | totp userId =>
      obtain rfl := Option.some.inj written
      exact ⟨fun none => TotpSecret.nonempty value (List.map_eq_nil_iff.mp none), rfl⟩
  | runParameters runId =>
      have distinct : ((SecretDict.fields value).map Prod.fst).Nodup :=
        (SecretDict.sorted value).imp ne_of_lt
      rw [Context.write, Json.dumpsUnicode_ofTexts (SecretDict.sorted value),
        Option.bind_some] at written
      refine ⟨ne_nil_of_encode (List.cons_ne_nil _ _) written, ?_⟩
      rw [Context.read, Context.readDict, Text.decode_encode written, Option.bind_some,
        Json.loads_dumpsTexts distinct]
      exact SecretDict.ofJson?_obj value
  | systemSecret secretName =>
      obtain rfl := Option.some.inj written
      have long : (Pepper.bytes value).length = 32 := Pepper.length_bytes value
      refine ⟨fun none => ?_, rfl⟩
      rw [none] at long
      cases long
  | keyCheck keyVersion =>
      obtain rfl := Option.some.inj written
      have back : (if MasterKeyring.checkText = MasterKeyring.checkText then some () else none) =
          some () := if_pos rfl
      exact ⟨by decide, back⟩

section Keyring

variable {Key : Type} {gcm : AesGcm Key} {keyring : MasterKeyring Key}

theorem Context.encrypt_eq (nonce : Nonce) (keyVersion : Option Nat) (context : Context)
    (value : context.Value) :
    Context.encrypt gcm keyring nonce keyVersion context value =
      (context.write value).bind fun plaintext => context.aad.bind fun aad =>
        encryptWithAad gcm keyring nonce plaintext aad (context.writtenVersion keyVersion) := by
  cases context with
  | runParameters runId => exact (Option.bind_assoc ..).symm
  | _ => rfl

theorem Context.decrypt_eq (envelope : Bytes) (keyVersion : Nat) (context : Context) :
    Context.decrypt gcm keyring envelope keyVersion context =
      context.aad.bind fun aad => (decryptWithAad gcm keyring envelope aad
        (context.effectiveVersion keyring keyVersion)).bind context.read := by
  cases context with
  | credential credentialId version => rfl
  | totp userId | systemSecret secretName =>
      exact congrArg (Option.bind _) (funext fun aad => (Option.bind_fun_some _).symm)
  | runParameters runId | keyCheck version => exact Option.bind_assoc ..

variable {envelope plaintext : Bytes} {version : Nat}

/-- A version that is in the keyring is looked up as it is. -/
theorem chosenVersion_of_key {key : Key}
    (found : keyring.key? version = some key) : chosenVersion keyring (some version) = version := by
  have member : version ∈ keyring.keys.map Prod.fst :=
    MasterKeyring.key?_isSome.mp (by rw [found]; rfl)
  have positive := keyring.positive version member
  cases version with
  | zero => omega
  | succ version => rfl

theorem effectiveVersion_of_key {key : Key} (found : keyring.key? version = some key)
    (context : Context) : context.effectiveVersion keyring version = version := by
  cases context with
  | credential credentialId revision => exact chosenVersion_of_key found
  | _ => rfl

/-- An envelope of the context with the key of a version. -/
structure Envelope (gcm : AesGcm Key) (keyring : MasterKeyring Key) (context : Context)
    (plaintext envelope : Bytes) (version : Nat) : Prop where
  made : ∃ (nonce : Nonce) (aad : Bytes) (key : Key), context.aad = some aad ∧
    keyring.key? version = some key ∧
      envelope = nonce.bytes ++ gcm.encrypt key nonce.bytes plaintext aad

/-- **What `encrypt` returns.** -/
theorem envelope_of_encrypt {nonce : Nonce} {keyVersion : Option Nat} {context : Context}
    {value : context.Value}
    (returned : Context.encrypt gcm keyring nonce keyVersion context value =
      some (envelope, version)) :
    ∃ plaintext, context.write value = some plaintext ∧
      Envelope gcm keyring context plaintext envelope version := by
  rw [Context.encrypt_eq] at returned
  obtain ⟨plaintext, written, returned⟩ := Option.bind_eq_some_iff.mp returned
  obtain ⟨aad, named, returned⟩ := Option.bind_eq_some_iff.mp returned
  obtain ⟨key, found, same⟩ := Option.map_eq_some_iff.mp returned
  obtain ⟨rfl, rfl⟩ := Prod.mk.inj same
  exact ⟨plaintext, written, ⟨nonce, aad, key, named, found, rfl⟩⟩

/-- An envelope is opened with some key and some associated data. -/
theorem decryptWithAad_sealed (nonce : Nonce) {encrypted aad : Bytes}
    (long : 17 ≤ encrypted.length) :
    decryptWithAad gcm keyring (nonce.bytes ++ encrypted) aad version =
      (keyring.key? version).bind fun key => gcm.decrypt key nonce.bytes encrypted aad := by
  have twelve := nonce.length_bytes
  have enough : ¬ (nonce.bytes ++ encrypted).length < 29 := by
    rw [List.length_append, twelve]
    omega
  rw [decryptWithAad, if_neg enough, List.take_left' twelve, List.drop_left' twelve]

theorem AesGcm.Ideal.long (ideal : gcm.Ideal) (nonempty : plaintext ≠ [])
    (key : Key) (nonce aad : Bytes) : 17 ≤ (gcm.encrypt key nonce plaintext aad).length := by
  have added := ideal.length_encrypt key nonce plaintext aad
  have some := List.length_pos_iff.mpr nonempty
  omega

/-- **An envelope is decrypted in its own context**, with its own version. -/
theorem Envelope.decrypt_own (ideal : gcm.Ideal) {context : Context} {value : context.Value}
    (written : context.write value = some plaintext)
    (isEnvelope : Envelope gcm keyring context plaintext envelope version) :
    Context.decrypt gcm keyring envelope version context = some (context.opened value) := by
  obtain ⟨nonce, aad, key, named, found, rfl⟩ := isEnvelope.made
  obtain ⟨nonempty, back⟩ := Context.read_write written
  rw [Context.decrypt_eq, named, Option.bind_some, effectiveVersion_of_key found,
    decryptWithAad_sealed nonce (ideal.long nonempty ..), found, Option.bind_some,
    ideal.decrypt_encrypt, Option.bind_some, back]

/-- **No other context and no other version opens it.** -/
theorem Envelope.decrypt_other (ideal : gcm.Ideal)
    (distinct : ∀ version version' key, keyring.key? version = some key →
      keyring.key? version' = some key → version = version')
    {context other : Context} {keyVersion : Nat}
    (nonempty : plaintext ≠ [])
    (isEnvelope : Envelope gcm keyring context plaintext envelope version)
    (differ : other ≠ context ∨ other.effectiveVersion keyring keyVersion ≠ version) :
    Context.decrypt gcm keyring envelope keyVersion other = none := by
  obtain ⟨nonce, aad, key, named, found, rfl⟩ := isEnvelope.made
  rw [Context.decrypt_eq]
  cases named' : other.aad with
  | none => rfl
  | some aad' =>
      rw [Option.bind_some, decryptWithAad_sealed nonce (ideal.long nonempty ..)]
      cases found' : keyring.key? (other.effectiveVersion keyring keyVersion) with
      | none => rfl
      | some key' =>
          have apart : (key', aad') ≠ (key, aad) := by
            intro same
            obtain ⟨rfl, rfl⟩ := Prod.mk.inj same
            rcases differ with contexts | versions
            · exact contexts (aad_injective named' named)
            · exact versions (distinct _ _ key' found' found)
          rw [Option.bind_some, ideal.authentic key key' nonce.bytes plaintext aad aad' apart]
          rfl

end Keyring

/-- **Envelopes cannot be swapped.**  Different contexts have different associated
data.  With an ideal cipher and a different key for every version, an envelope is
decrypted to the value that it was made for in its own context with its own
version, and to nothing in any other context or with any other version. -/
theorem envelopes_apart {Key : Type} (gcm : AesGcm Key) (ideal : gcm.Ideal)
    (keyring : MasterKeyring Key)
    (distinct : ∀ version version' key, keyring.key? version = some key →
      keyring.key? version' = some key → version = version') :
    (∀ (context other : Context) (aad : Bytes), context.aad = some aad → other.aad = some aad →
      context = other) ∧
    ∀ (nonce : Nonce) (keyVersion : Option Nat) (context : Context) (value : context.Value)
      (envelope : Bytes) (version : Nat),
      Context.encrypt gcm keyring nonce keyVersion context value = some (envelope, version) →
      Context.decrypt gcm keyring envelope version context = some (context.opened value) ∧
      ∀ (other : Context) (otherVersion : Nat),
        (other ≠ context ∨ other.effectiveVersion keyring otherVersion ≠ version) →
          Context.decrypt gcm keyring envelope otherVersion other = none := by
  constructor
  · intro context other aad made made'
    exact aad_injective made made'
  · intro nonce keyVersion context value envelope version returned
    obtain ⟨plaintext, written, isEnvelope⟩ := envelope_of_encrypt returned
    refine ⟨isEnvelope.decrypt_own ideal written, fun other otherVersion differ => ?_⟩
    exact isEnvelope.decrypt_other ideal distinct (Context.read_write written).1 differ

/-! ## Records -/

/-- The context that the envelope of a record is made for. -/
def RecordId.context : RecordId → Context
  | .credential credentialId revision => .credential (Fin.ofNat _ credentialId) revision
  | .mfa userId => .totp (Fin.ofNat _ userId)
  | .system secretName => .systemSecret (text secretName)
  | .runSecret runId => .runParameters (Fin.ofNat _ runId)

/-- A cipher over bytes as one over the contexts of records. -/
def AesGcm.ofRecords {Key : Type} (gcm : AesGcm Key) (bytes : Aad → Bytes) : Aead Key where
  encrypt key nonce plaintext aad := gcm.encrypt key nonce plaintext (bytes aad)
  decrypt key nonce encrypted aad := gcm.decrypt key nonce encrypted (bytes aad)

/-- **The keyring over contexts is the one over their bytes.** -/
theorem decryptRecord_ofRecords {Key : Type} (gcm : AesGcm Key) (keyring : MasterKeyring Key)
    {bytes : Aad → Bytes} {record : EncryptedRecord}
    (named : record.recordId.context.aad = some (bytes record.recordId.aad)) :
    decryptRecord (gcm.ofRecords bytes) keyring record =
      record.recordId.context.aad.bind fun aad =>
        decryptWithAad gcm keyring record.encryptedPayload aad record.encryptionKeyVersion := by
  rw [named, Option.bind_some]
  rfl

/-! ## A cipher that is ideal -/

/-- Bytes that show where they end. -/
def spread : Bytes → Bytes
  | [] => List.replicate 16 0
  | byte :: bytes => 1 :: byte :: spread bytes

theorem spread_injective {bytes others rest rest' : Bytes}
    (same : spread bytes ++ rest = spread others ++ rest') : bytes = others := by
  induction bytes generalizing others with
  | nil =>
      cases others with
      | nil => rfl
      | cons byte others => exact absurd (List.cons.inj same).1 (by decide)
  | cons byte bytes ih =>
      cases others with
      | nil => exact absurd (List.cons.inj same).1 (by decide)
      | cons other others =>
          obtain ⟨here, later⟩ := List.cons.inj (List.cons.inj same).2
          rw [here, ih later]

theorem length_spread (bytes : Bytes) : 16 ≤ (spread bytes).length := by
  induction bytes with
  | nil => exact Nat.le_refl 16
  | cons byte bytes ih =>
      rw [spread, List.length_cons, List.length_cons]
      omega

/-- A cipher that writes the key and the associated data in front. -/
def labelling : AesGcm UInt8 where
  encrypt key _ plaintext aad := key :: (spread aad ++ plaintext)
  decrypt key _ encrypted aad :=
    if key :: spread aad <+: encrypted then some (encrypted.drop ((spread aad).length + 1)) else none

theorem labelling_ideal : labelling.Ideal where
  decrypt_encrypt key nonce plaintext aad := by
    have begins : key :: spread aad <+: key :: (spread aad ++ plaintext) := ⟨plaintext, rfl⟩
    simp only [labelling, if_pos begins, List.drop_succ_cons, List.drop_left]
  length_encrypt key nonce plaintext aad := by
    have long := length_spread aad
    simp only [labelling, List.length_cons, List.length_append]
    omega
  authentic key key' nonce plaintext aad aad' apart := by
    refine if_neg ?_
    rintro ⟨rest, same⟩
    obtain ⟨rfl, tails⟩ := List.cons.inj same
    rw [spread_injective tails] at apart
    exact apart rfl

/-- Two keys, the second of which is the primary one. -/
def twoKeys : MasterKeyring UInt8 where
  keys := [(1, 7), (2, 9)]
  primaryVersion := 2
  distinct := by decide
  positive := by decide
  primary_mem := by decide

theorem twoKeys_distinct : ∀ version version' key, twoKeys.key? version = some key →
    twoKeys.key? version' = some key → version = version' := by
  intro version version' key found found'
  have members := MasterKeyring.key?_eq_some.mp found
  have members' := MasterKeyring.key?_eq_some.mp found'
  have each : ∀ entry ∈ twoKeys.keys, ∀ other ∈ twoKeys.keys, entry.2 = other.2 →
      entry.1 = other.1 := by decide
  exact each _ members _ members' rfl

/-- A nonce. -/
def sampleNonce : Nonce := ⟨List.replicate 12 3, by decide⟩

/-- A password. -/
def sampleSecret : SecretDict :=
  ⟨[(text "password", text "hunter2")], List.pairwise_singleton _ _, by decide⟩

/-- The envelope of a password, in its own revision, in the next one, and for a user. -/
theorem envelopes_apart_password :
    ∃ envelope, Context.encrypt labelling twoKeys sampleNonce none (.credential 5 1) sampleSecret =
        some (envelope, 2) ∧
      Context.decrypt labelling twoKeys envelope 2 (.credential 5 1) = some sampleSecret ∧
      Context.decrypt labelling twoKeys envelope 2 (.credential 5 2) = none ∧
      Context.decrypt labelling twoKeys envelope 2 (.totp 5) = none ∧
      Context.decrypt labelling twoKeys envelope 1 (.credential 5 1) = none := by
  have law := (envelopes_apart labelling labelling_ideal twoKeys twoKeys_distinct).2
  have version : (Context.encrypt labelling twoKeys sampleNonce none (.credential 5 1)
      sampleSecret).map Prod.snd = some 2 := by decide
  obtain ⟨⟨envelope, _⟩, returned, rfl⟩ := Option.map_eq_some_iff.mp version
  obtain ⟨own, other⟩ := law _ _ _ _ _ _ returned
  refine ⟨envelope, returned, own, other _ _ (.inl ?_), other _ _ (.inl ?_), other _ _ (.inr ?_)⟩
  · intro same
    injection same with _ versions
    cases versions
  · intro same
    cases same
  · decide

end OpsComposer.Encryption
