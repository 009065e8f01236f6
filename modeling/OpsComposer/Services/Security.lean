import OpsComposer.Foundations.Base32
import OpsComposer.Services.Auth

/-!
# Codes of a second factor, and passwords

`auth/security.py`: how a stored secret becomes the code of a time step, how a
recovery code becomes the hash that is looked up, and how passwords are hashed and
verified.  All of it may raise: the secret is decoded from base 32, the recovery code
is encoded in ASCII once it has been put into upper case and everything else than
letters and digits is dropped, and a password is encoded in UTF-8, which has no lone
surrogates.

`Hashes` are the hash functions, of which only the size of one digest is known, and
the hasher of passwords as it works on bytes; `Hashes.primitives` is what the
authentication service is given.
-/

set_option autoImplicit false

namespace OpsComposer.Services.Security

open Domain Foundations

/-- The hash functions, and `PASSWORD_HASHER` on bytes. -/
structure Hashes where
  /-- `hashlib.sha256(…).hexdigest()`. -/
  sha256 : Bytes → String
  /-- `hmac.new(key, message, hashlib.sha1).digest()`. -/
  hmacSha1 : (key message : Bytes) → Bytes
  length_hmacSha1 : ∀ key message, (hmacSha1 key message).length = 20
  /-- The Argon2id hash of a password, with the salt that is drawn. -/
  argon2 : (salt : Nat) → Bytes → String
  /-- A hash has the prefix of a variant of Argon2. -/
  isArgon2 : Bytes → Bool
  /-- The Argon2 hash is one of the password. -/
  verifies : (passwordHash password : Bytes) → Bool
  /-- `PASSWORD_HASHER.check_needs_rehash`, which raises where no parameters can be read. -/
  needsRehash : String → Option Bool
  /-- `DUMMY_PASSWORD_HASH`, which is computed when the module is imported. -/
  dummyPasswordHash : String

/-- `struct.pack(">Q", step)`. -/
def packStep (step : Nat) : Option Bytes :=
  if step < 2 ^ 64 then
    some ([7, 6, 5, 4, 3, 2, 1, 0].map fun place => UInt8.ofNat (step / 256 ^ place % 256))
  else none

/-- `struct.unpack(">I", s)`. -/
def unpackWord : Bytes → Option Nat
  | [a, b, c, d] => some (((a.toNat * 256 + b.toNat) * 256 + c.toNat) * 256 + d.toNat)
  | _ => none

/-- `f"{value:06d}"`, for a value of six digits at most. -/
def sixDigits (value : Nat) : String :=
  String.ofList ([5, 4, 3, 2, 1, 0].map fun place => (value / 10 ^ place % 10).digitChar)

section Codes

variable (tables : CharTables) (hashes : Hashes)

/-- `_decode_totp_secret`. -/
def decodeTotpSecret (secret : Text) : Option Bytes :=
  let padding := List.replicate ((8 - secret.length % 8) % 8) 61
  (Text.ascii? (tables.upperText secret ++ padding)).bind Base32.decode

/-- `totp_code`. -/
def totpCode (secret : Text) (step : Nat) : Option String :=
  (decodeTotpSecret tables secret).bind fun key =>
    (packStep step).bind fun message =>
      let digest := hashes.hmacSha1 key message
      let offset := (digest.getLastD 0).toNat % 16
      (unpackWord ((digest.drop offset).take 4)).map fun word =>
        sixDigits (word % 2 ^ 31 % 1000000)

/-- `normalize_recovery_code`. -/
def normalizeRecoveryCode (code : Text) : Text :=
  (tables.upperText code).filter fun c => tables.isAlnum c

/-- `hash_recovery_code`. -/
def hashRecoveryCode (code : Text) : Option String :=
  (Text.ascii? (normalizeRecoveryCode tables code)).map hashes.sha256

/-! ## Passwords -/

/-- `hash_password`. -/
def hashPassword (salt : Nat) (password : Text) : Option String :=
  (Text.encode password).map (hashes.argon2 salt)

/-- `password_hash or DUMMY_PASSWORD_HASH`. -/
def candidateHash (passwordHash : Option String) : String :=
  (passwordHash.filter fun stored => stored ≠ "").getD hashes.dummyPasswordHash

/-- `PASSWORD_HASHER.verify`, with the errors that `verify_password` catches as `false`.  The
hash is encoded first, and the password only if the hash is one of Argon2. -/
def verifySecret (passwordHash : String) (password : Text) : Option Bool :=
  (Text.ascii? (text passwordHash)).bind fun encoded =>
    if hashes.isArgon2 encoded = false then some false
    else (Text.encode password).map (hashes.verifies encoded)

/-- `verify_password`. -/
def verifyPassword (passwordHash : Option String) (password : Text) :
    Option PasswordVerification :=
  (verifySecret hashes (candidateHash hashes passwordHash) password).bind fun verified =>
    match verified, passwordHash with
    | true, some stored =>
        (hashes.needsRehash stored).map fun needsRehash =>
          { valid := true, needsRehash := needsRehash }
    | _, _ => some { valid := false, needsRehash := false }

/-- The primitives of the service, with codes and passwords as they are computed. -/
def Hashes.primitives (base : Primitives) : Primitives :=
  { base with
    hashPassword := hashPassword hashes
    verifyPassword := verifyPassword hashes
    totpCode := fun secret => totpCode tables hashes (text secret)
    hashRecoveryCode := hashRecoveryCode tables hashes }

end Codes

/-! ## What is drawn -/

/-- `generate_totp_secret`, of the twenty bytes that it draws. -/
def generateTotpSecret (drawn : Bytes) : Text := (Base32.encode drawn).rdropWhile (· == 61)

/-- `raw[index : index + 5] for index in range(0, len(raw), 5)`. -/
def inFives : Nat → Text → List Text
  | 0, _ => []
  | groups + 1, raw => if raw = [] then [] else raw.take 5 :: inFives groups (raw.drop 5)

/-- One of `generate_recovery_codes`, of the sixteen bytes that are drawn for it. -/
def generateRecoveryCode (drawn : Bytes) : Text :=
  let raw := (Base32.encode drawn).rdropWhile (· == 61)
  Text.join 45 (inFives raw.length raw)

end OpsComposer.Services.Security
