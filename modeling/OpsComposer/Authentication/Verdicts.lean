import OpsComposer.Authentication.Effect
import OpsComposer.Domain.Errors
import OpsComposer.Services.Security

/-!
# Verdicts on a submitted value

`complete_mfa`, `reauthenticate` and `change_password` take any text of 6 to 64
characters for the value of a second factor.  A value of six digits is compared
with the codes of the stored secret; every other value is taken for a recovery
code, put into upper case, stripped of what is neither a letter nor a digit, and
encoded in ASCII.  The last step raises `UnicodeEncodeError` where a letter or a
digit outside of ASCII is left, and nothing turns it into `InvalidMfaCodeError`.
The passwords of the last two are encoded in UTF-8, which raises on a lone surrogate.

* `proper_iff` — a call succeeds or raises a declared error, if and only if its
  passwords can be read and what it comes to verify is `Verifiable`: the secret is
  base 32, or no step is left to try, for a value of six digits; no letter or digit
  outside of ASCII is left of the value, for any other, unless the call ends an
  enrollment;
* `accepted_iff` — when a verification says yes, which is where a new password comes
  to be hashed;
* `decodeTotpSecret_generated` — the secrets that are generated are base 32.

The negative controls are `éééééé`, for a factor with a secret of the usual form, and
passwords of lone surrogates.
-/

set_option autoImplicit false

namespace OpsComposer.Authentication

open Domain Foundations Repositories Services
open Services.Security

/-! ## Proper outcomes -/

/-- A success, or one of the errors of `auth/errors.py`. -/
def Proper {α : Type} (outcome : Except AuthError α) : Prop :=
  ∀ error, outcome = .error error → error.code?.isSome

section Proper

variable {α β : Type}

@[simp] theorem proper_ok (a : α) : Proper (.ok a : Except AuthError α) := fun _ raised => by
  cases raised

@[simp] theorem proper_error {error : AuthError} :
    Proper (.error error : Except AuthError α) ↔ error.code?.isSome := by
  constructor
  · exact fun proper => proper error rfl
  · intro declared raised same
    cases same
    exact declared

theorem not_proper_undeclared : ¬ Proper (.error .undeclared : Except AuthError α) := by
  rw [proper_error]
  decide

theorem proper_invalidMfaCode : Proper (.error .invalidMfaCode : Except AuthError α) :=
  proper_error.mpr rfl

theorem proper_invalidChallenge : Proper (.error .invalidChallenge : Except AuthError α) :=
  proper_error.mpr rfl

@[simp] theorem proper_map {outcome : Except AuthError α} {f : α → β} :
    Proper (outcome.map f) ↔ Proper outcome := by
  cases outcome with
  | error error => exact proper_error.trans proper_error.symm
  | ok a => exact iff_of_true (proper_ok _) (proper_ok _)

end Proper

/-! ## The codes of a secret -/

section Codes

variable {tables : CharTables} {hashes : Hashes} {base : Primitives}

variable {steps : List Nat} {step : Nat} {secret : String} {code value : Text}

variable (hashes) in
/-- Nothing but the secret keeps a code from being computed. -/
theorem totpCode_isSome {secret : Text} (small : step < 2 ^ 64) :
    (totpCode tables hashes secret step).isSome ↔ (decodeTotpSecret tables secret).isSome := by
  unfold totpCode packStep
  cases decodeTotpSecret tables secret with
  | none => simp
  | some key =>
      rw [if_pos small]
      simp only [Option.bind_some, Option.isSome_map, Option.isSome_some, iff_true]
      generalize [7, 6, 5, 4, 3, 2, 1, 0].map (fun place => UInt8.ofNat (step / 256 ^ place % 256))
        = message
      have length := hashes.length_hmacSha1 key message
      generalize hashes.hmacSha1 key message = digest at length ⊢
      have four : ((digest.drop ((digest.getLastD 0).toNat % 16)).take 4).length = 4 := by
        rw [List.length_take, List.length_drop]
        omega
      obtain ⟨a, b, c, d, isWord⟩ := List.length_eq_four.mp four
      rw [isWord]
      rfl

theorem firstMatch_of_decodable (decodable : (decodeTotpSecret tables (text secret)).isSome)
    (small : ∀ step ∈ steps, step < 2 ^ 64) :
    ∃ found, firstMatch (hashes.primitives tables base) secret code steps = .ok found := by
  induction steps with
  | nil => exact ⟨none, rfl⟩
  | cons step steps ih =>
      obtain ⟨here, later⟩ := List.forall_mem_cons.mp small
      obtain ⟨computed, isComputed⟩ := Option.isSome_iff_exists.mp
        ((totpCode_isSome hashes here).mpr decodable)
      have first : (hashes.primitives tables base).totpCode secret step = some computed := isComputed
      unfold firstMatch
      rw [first]
      by_cases same : text computed = code
      · exact ⟨some step, if_pos same⟩
      · obtain ⟨found, rest⟩ := ih later
        exact ⟨found, (if_neg same).trans rest⟩

theorem firstMatch_of_undecodable (undecodable : ¬ (decodeTotpSecret tables (text secret)).isSome) :
    firstMatch (hashes.primitives tables base) secret code (step :: steps) =
      .error .undeclared := by
  have none : totpCode tables hashes (text secret) step = none := by
    rw [totpCode, Option.not_isSome_iff_eq_none.mp undecodable, Option.bind_none]
  unfold firstMatch
  rw [show (hashes.primitives tables base).totpCode secret step = _ from none]

/-- Nothing is raised but what `totp_code` raises. -/
theorem undeclared_of_firstMatch {primitives : Primitives} {error : AuthError}
    (raised : firstMatch primitives secret code steps = .error error) : error = .undeclared := by
  induction steps with
  | nil => cases raised
  | cons step steps ih =>
      unfold firstMatch at raised
      split at raised
      · cases raised
        rfl
      · split at raised
        · cases raised
        · exact ih raised

/-- Where none of the steps matches, none of them has the code. -/
theorem code_ne_of_firstMatch {primitives : Primitives}
    (unmatched : firstMatch primitives secret code steps = .ok none) :
    ∀ step ∈ steps, (primitives.totpCode secret step).map text ≠ some code := by
  induction steps with
  | nil => simp
  | cons step steps ih =>
      unfold firstMatch at unmatched
      split at unmatched
      · cases unmatched
      next computed isComputed =>
        split at unmatched
        · cases unmatched
        next other =>
          refine List.forall_mem_cons.mpr ⟨fun same => other ?_, ih unmatched⟩
          rw [isComputed, Option.map_some] at same
          exact Option.some.inj same

/-- The code of a step has six digits. -/
theorem isTotpCode_of_totpCode {secret : Text} {computed : String}
    (isComputed : totpCode tables hashes secret step = some computed) :
    isTotpCode (text computed) = true := by
  have digit : ∀ n, 48 ≤ (n % 10).digitChar.toNat ∧ (n % 10).digitChar.toNat ≤ 57 := fun n =>
    (by decide : ∀ d < 10, 48 ≤ d.digitChar.toNat ∧ d.digitChar.toNat ≤ 57) _
      (Nat.mod_lt n (by decide))
  obtain ⟨key, -, isComputed⟩ := Option.bind_eq_some_iff.mp isComputed
  obtain ⟨message, -, isComputed⟩ := Option.bind_eq_some_iff.mp isComputed
  obtain ⟨word, -, rfl⟩ := Option.map_eq_some_iff.mp isComputed
  simp only [isTotpCode, text, sixDigits, String.toList_ofList, List.map_map, List.length_map,
    Bool.and_eq_true, List.all_eq_true, List.mem_map, decide_eq_true_eq]
  refine ⟨rfl, ?_⟩
  rintro _ ⟨place, -, rfl⟩
  exact digit _

/-- Every step is spent once one after the current one has been accepted. -/
theorem triedSteps_eq_nil_iff {now : Nat} {lastAcceptedStep : Option Nat} :
    triedSteps now lastAcceptedStep = [] ↔ ∃ last ∈ lastAcceptedStep, now / seconds 30 < last := by
  rw [List.eq_nil_iff_forall_not_mem]
  constructor
  · intro spent
    by_contra fresh
    refine spent (now / seconds 30 + 1) (mem_triedSteps.mpr ⟨by omega, le_rfl, ?_⟩)
    intro last isLast
    by_contra late
    exact fresh ⟨last, isLast, by omega⟩
  · rintro ⟨last, isLast, spent⟩ step tried
    obtain ⟨-, near, later⟩ := mem_triedSteps.mp tried
    have after := later last isLast
    omega

/-! ## Recovery codes -/

/-- What is left of a text in upper case is ASCII. -/
def LeavesAscii (tables : CharTables) (value : Text) : Prop :=
  ∀ c ∈ value, ∀ capital ∈ tables.upper c, tables.isAlnum capital = true → capital < 128

theorem hashRecoveryCode_isSome :
    (hashRecoveryCode tables hashes value).isSome ↔ LeavesAscii tables value := by
  rw [hashRecoveryCode, Option.isSome_map, Text.isSome_ascii?]
  unfold normalizeRecoveryCode CharTables.upperText LeavesAscii
  simp only [List.mem_filter, List.mem_flatMap]
  constructor
  · exact fun ascii c member capital isCapital kept => ascii capital ⟨⟨c, member, isCapital⟩, kept⟩
  · rintro ascii capital ⟨⟨c, member, isCapital⟩, kept⟩
    exact ascii c member capital isCapital kept

theorem leavesAscii_of_ascii (ascii : ∀ c ∈ value, c < 128) : LeavesAscii tables value := by
  intro c member capital isCapital _
  rw [tables.upper_ascii c (ascii c member), List.mem_singleton] at isCapital
  rw [isCapital]
  exact asciiUpper_lt (ascii c member)

/-- A code of six digits is ASCII, whatever it is taken for. -/
theorem ascii_of_isTotpCode (digits : isTotpCode value = true) : ∀ c ∈ value, c < 128 := by
  obtain ⟨-, all⟩ := Bool.and_eq_true_iff.mp digits
  intro c member
  have digit := List.all_eq_true.mp all c member
  simp only [Bool.and_eq_true, decide_eq_true_eq] at digit
  omega

theorem mem_inFives {groups c : Nat} {raw part : Text} (isPart : part ∈ inFives groups raw)
    (member : c ∈ part) : c ∈ raw := by
  induction groups generalizing raw with
  | zero => cases isPart
  | succ groups ih =>
      unfold inFives at isPart
      split at isPart
      · cases isPart
      · rcases List.mem_cons.mp isPart with rfl | later
        · exact List.mem_of_mem_take member
        · exact List.mem_of_mem_drop (ih later)

/-- The codes that are generated are ASCII. -/
theorem generateRecoveryCode_ascii (drawn : Bytes) : ∀ c ∈ generateRecoveryCode drawn, c < 128 := by
  intro c member
  rcases Text.mem_join member with rfl | ⟨part, isPart, inside⟩
  · omega
  · have written := mem_inFives isPart inside
    have kept := (List.rdropWhile_prefix (· == 61) _).subset written
    rcases Base32.encode_digits drawn c kept with digit | rfl
    · exact Base32.alphabet_ascii c digit
    · omega

/-- **The secrets that are generated are base 32.** -/
theorem decodeTotpSecret_generated {drawn : Bytes} (full : drawn.length % 5 = 0) :
    (decodeTotpSecret tables (generateTotpSecret drawn)).isSome := by
  obtain ⟨digits, length⟩ := Base32.encode_full full
  have bare : generateTotpSecret drawn = Base32.encode drawn := by
    rw [generateTotpSecret, List.rdropWhile_eq_self_iff]
    intro nonempty
    have last := Base32.not_padding_of_mem _ (digits _ (List.getLast_mem nonempty))
    intro padded
    exact last (congrArg UInt8.ofNat (beq_iff_eq.mp padded))
  have upper : tables.upperText (Base32.encode drawn) = Base32.encode drawn := by
    rw [tables.upperText_ascii digits.ascii]
    exact (List.map_congr_left fun c member => Base32.alphabet_upper c (digits c member)).trans
      (List.map_id _)
  have filled : (8 - (Base32.encode drawn).length % 8) % 8 = 0 := by omega
  rw [decodeTotpSecret, bare, filled, upper, List.replicate_zero, List.append_nil,
    Text.ascii?_of_ascii digits.ascii]
  exact Base32.isSome_decode digits length

end Codes

/-! ## Verifications -/

/-- What a value is verified for: to end an enrollment, or to show the possession of a
factor, for which a recovery code will do. -/
inductive MfaUse where
  | enrollment
  | possession
  deriving DecidableEq

/-- The step that a code has to be newer than. -/
def MfaUse.lastAcceptedStep (factor : MfaFactor) : MfaUse → Option Nat
  | .enrollment => none
  | .possession => factor.lastAcceptedStep

/-- The first instant that no `datetime` holds, the year 10000. -/
def endOfDatetimes : Nat := seconds 253402300800

/-- A secret that codes can be computed of, unless no step is left to compute one for. -/
def SecretReadable (tables : CharTables) (secret : String) (lastAcceptedStep : Option Nat)
    (now : Nat) : Prop :=
  (decodeTotpSecret tables (text secret)).isSome ∨ ∃ last ∈ lastAcceptedStep, now / seconds 30 < last

/-- **Where a verification comes to a verdict**: a value of six digits needs a readable
secret, and any other value, where it is taken for a recovery code, leaves ASCII. -/
def Verifiable (tables : CharTables) (base : Primitives) (use : MfaUse) (factor : MfaFactor)
    (value : Text) (now : Nat) : Prop :=
  ∀ secret, base.decryptTotp factor.userId factor.encryptedTotpSecret factor.encryptionKeyVersion =
      some secret →
    if isTotpCode value = true then
      SecretReadable tables secret (use.lastAcceptedStep factor) now
    else use = .possession → LeavesAscii tables value

section Verifications

variable {tables : CharTables} {hashes : Hashes} {base : Primitives} {store : AuthStore}
  {factor : MfaFactor} {value : Text} {secret : String} {lastAcceptedStep : Option Nat} {now : Nat}

theorem step_small (clock : now < endOfDatetimes) :
    ∀ step ∈ triedSteps now lastAcceptedStep, step < 2 ^ 64 := by
  intro step tried
  obtain ⟨-, near, -⟩ := mem_triedSteps.mp tried
  have current : now / seconds 30 ≤ now := Nat.div_le_self _ _
  unfold endOfDatetimes seconds at clock
  omega

variable (hashes base) in
theorem matchTotpStep_of_readable (clock : now < endOfDatetimes)
    (readable : isTotpCode value = true → SecretReadable tables secret lastAcceptedStep now) :
    ∃ found, matchTotpStep (hashes.primitives tables base) secret value now lastAcceptedStep =
      .ok found := by
  unfold matchTotpStep
  by_cases other : isTotpCode value = false
  · exact ⟨none, if_pos other⟩
  · rw [if_neg other]
    rcases readable (by simpa using other) with decodable | spent
    · exact firstMatch_of_decodable decodable (step_small clock)
    · rw [triedSteps_eq_nil_iff.mpr spent]
      exact ⟨none, rfl⟩

theorem matchTotpStep_of_unreadable (code : isTotpCode value = true)
    (unreadable : ¬ SecretReadable tables secret lastAcceptedStep now) :
    matchTotpStep (hashes.primitives tables base) secret value now lastAcceptedStep =
      .error .undeclared := by
  obtain ⟨undecodable, unspent⟩ := not_or.mp unreadable
  rw [matchTotpStep, code, if_neg (by decide)]
  cases tried : triedSteps now lastAcceptedStep with
  | nil => exact absurd (triedSteps_eq_nil_iff.mp tried) unspent
  | cons step steps => exact firstMatch_of_undecodable undecodable

/-- Nothing else than a hash that is missing keeps a recovery code from being looked up. -/
theorem proper_consume {α : Type} {hash : Option String} {consumed : String → α} :
    Proper (match hash with
      | none => .error .undeclared
      | some codeHash => .ok (consumed codeHash) : Except AuthError α) ↔ hash.isSome := by
  cases hash with
  | none => exact iff_of_false not_proper_undeclared (by simp)
  | some codeHash => exact iff_of_true (proper_ok _) rfl

variable (hashes store) in
/-- **`_verify_mfa_value` comes to a verdict exactly on what is verifiable.** -/
theorem proper_verifyMfaValue_iff (clock : now < endOfDatetimes) :
    Proper (AuthService.verifyMfaValue (hashes.primitives tables base) store factor value true now) ↔
      Verifiable tables base .possession factor value now := by
  unfold AuthService.verifyMfaValue Verifiable
  rw [show (hashes.primitives tables base).decryptTotp = base.decryptTotp from rfl]
  cases base.decryptTotp factor.userId factor.encryptedTotpSecret factor.encryptionKeyVersion with
  | none => exact iff_of_true proper_invalidMfaCode fun _ opened => by cases opened
  | some secret =>
      simp only [Option.some.injEq, forall_eq', forall_const]
      by_cases code : isTotpCode value = true
      · rw [if_pos code]
        by_cases readable : SecretReadable tables secret factor.lastAcceptedStep now
        · obtain ⟨found, matched⟩ := matchTotpStep_of_readable hashes base
            clock fun _ => readable
          rw [matched]
          refine iff_of_true ?_ readable
          cases found with
          | some step => exact proper_ok _
          | none =>
              exact proper_consume.mpr (hashRecoveryCode_isSome.mpr
                (leavesAscii_of_ascii (ascii_of_isTotpCode code)))
        · rw [matchTotpStep_of_unreadable code readable]
          exact iff_of_false not_proper_undeclared readable
      · rw [if_neg code, matchTotpStep, if_pos (by simpa using code)]
        exact proper_consume.trans hashRecoveryCode_isSome

/-- The value is accepted: the secret can be decrypted, and the value is one of its codes or
an unused recovery code. -/
def Accepted (primitives : Primitives) (store : AuthStore) (factor : MfaFactor) (value : Text)
    (now : Nat) : Prop :=
  (primitives.decryptTotp factor.userId factor.encryptedTotpSecret
      factor.encryptionKeyVersion).isSome ∧
    VerifiesMfa primitives store factor.userId value now

/-- **A verification of a confirmed factor says yes exactly to what is accepted.** -/
theorem accepted_iff (found : AuthRepository.getMfaFactor store factor.userId = some factor)
    (confirmed : factor.confirmedAt.isSome) {verified recovered : Bool} {checked : AuthStore}
    (done : AuthService.verifyMfaValue (hashes.primitives tables base) store factor value true now =
      .ok ((verified, recovered), checked)) :
    verified = true ↔ Accepted (hashes.primitives tables base) store factor value now := by
  have sound := (verifyMfaValue_spec found done).2
  unfold AuthService.verifyMfaValue at done
  split at done
  · cases done
  next secret opened =>
    refine ⟨fun right => ⟨Option.isSome_of_eq_some opened, sound right⟩, fun accepted => ?_⟩
    split at done
    · cases done
    next step matched =>
      simp only [AuthRepository.acceptTotpStep, Except.ok.injEq, Prod.mk.injEq] at done
      rw [← done.1.1, decide_eq_true_eq]
      exact ⟨factor, found, rfl, confirmed, (matchTotpStep_spec matched).2.2.2⟩
    next unmatched =>
      rcases accepted.2 with ⟨factor', found', secret', step, opened', isCode, near⟩ | recovers
      · -- a code of a step that is tried would have matched
        cases found.symm.trans found'
        cases opened.symm.trans opened'
        obtain ⟨computed, isComputed, rfl⟩ := Option.map_eq_some_iff.mp isCode
        rw [matchTotpStep, isTotpCode_of_totpCode isComputed, if_neg (by decide)] at unmatched
        exact absurd isCode (code_ne_of_firstMatch unmatched step (mem_triedSteps.mpr near))
      · obtain ⟨codeHash, hashed, unused⟩ := recovers
        rw [if_pos rfl, hashed] at done
        simp only [AuthRepository.consumeRecoveryCode, Except.ok.injEq, Prod.mk.injEq] at done
        rw [← done.1.1, decide_eq_true_eq]
        exact unused

/-- A declared error is raised only where the secret cannot be decrypted. -/
theorem not_accepted_of_error {error : AuthError}
    (raised : AuthService.verifyMfaValue (hashes.primitives tables base) store factor value true
      now = .error error) (declared : error.code?.isSome) :
    ¬ Accepted (hashes.primitives tables base) store factor value now := by
  unfold AuthService.verifyMfaValue at raised
  split at raised
  next unopened => exact fun accepted => by simp [Accepted, unopened] at accepted
  · split at raised
    next matched =>
      cases raised
      unfold matchTotpStep at matched
      split at matched
      · cases matched
      · rw [undeclared_of_firstMatch matched] at declared
        cases declared
    · cases raised
    · split at raised
      · split at raised
        · cases raised
          cases declared
        · cases raised
      · cases raised

end Verifications

/-! ## Passwords -/

/-- **Where a password gets a verdict**: the hash that it is compared with is ASCII; where that
is a hash of Argon2, the password has no lone surrogate; and where the password is the right
one, the parameters of the hash can be read. -/
def PasswordReadable (hashes : Hashes) (passwordHash : Option String) (password : Text) : Prop :=
  ∃ encoded, Text.ascii? (text (candidateHash hashes passwordHash)) = some encoded ∧
    (hashes.isArgon2 encoded = true → ∃ secret, Text.encode password = some secret ∧
      (hashes.verifies encoded secret = true →
        ∀ stored ∈ passwordHash, (hashes.needsRehash stored).isSome))

section Passwords

variable {tables : CharTables} {hashes : Hashes} {base : Primitives}

variable {password : Text}

theorem verifyPassword_isSome {passwordHash : Option String} :
    (verifyPassword hashes passwordHash password).isSome ↔
      PasswordReadable hashes passwordHash password := by
  unfold verifyPassword verifySecret PasswordReadable
  cases Text.ascii? (text (candidateHash hashes passwordHash)) with
  | none => simp
  | some encoded =>
      simp only [Option.bind_some, Option.some.injEq, exists_eq_left']
      by_cases argon2 : hashes.isArgon2 encoded = true
      · rw [if_neg (by simpa using argon2)]
        cases Text.encode password with
        | none => simp [argon2]
        | some secret =>
            cases verified : hashes.verifies encoded secret <;> cases passwordHash <;>
              simp [argon2, verified]
      · simp [argon2]

/-- **A check of a password comes to a verdict exactly on what is readable.** -/
theorem proper_checkPassword_iff {user? : Option User} :
    Proper (AuthService.checkPassword (hashes.primitives tables base) user? password) ↔
      ∃ passwordHash, AuthService.credentialHash user? = some passwordHash ∧
        PasswordReadable hashes passwordHash password := by
  simp only [← verifyPassword_isSome]
  unfold AuthService.checkPassword
  rw [show (hashes.primitives tables base).verifyPassword = verifyPassword hashes from rfl]
  cases AuthService.credentialHash user? with
  | none => exact iff_of_false not_proper_undeclared (by simp)
  | some passwordHash =>
  simp only [Option.bind_some, Option.some.injEq, exists_eq_left']
  cases verifyPassword hashes passwordHash password with
  | none => exact iff_of_false not_proper_undeclared (by simp)
  | some verification =>
      refine iff_of_true ?_ rfl
      cases user? with
      | none => exact proper_error.mpr rfl
      | some user =>
          dsimp only
          split
          · exact proper_error.mpr rfl
          · exact proper_ok _

/-- A new password is hashed unless it has a lone surrogate. -/
theorem proper_hashPassword_iff {salt : Nat} :
    Proper (AuthService.hashPassword (hashes.primitives tables base) salt password) ↔
      ∀ c ∈ password, c.isValidChar := by
  rw [← Text.encode_isSome_iff]
  unfold AuthService.hashPassword
  rw [show (hashes.primitives tables base).hashPassword salt password =
    (Text.encode password).map (hashes.argon2 salt) from rfl]
  cases Text.encode password with
  | none => exact iff_of_false not_proper_undeclared (by simp)
  | some encoded => exact iff_of_true (proper_ok _) rfl

end Passwords

/-! ## What is drawn -/

/-- What `uuid4`, `generate_token` and `generate_recovery_codes` give: ids and a token
that the database does not hold, and codes that are made of drawn bytes. -/
structure Drawn (primitives : Primitives) (store : AuthStore) (fresh : Fresh) : Prop where
  sessionId : store.sessions.lookup fresh.sessionId = none
  sessionToken : ∀ session ∈ store.sessions.rows,
    session.tokenHash ≠ primitives.hashToken fresh.sessionToken
  codes : ∀ code ∈ fresh.recoveryCodes, ∃ drawn, text code.2 = generateRecoveryCode drawn
  codeIds : (fresh.recoveryCodes.map Prod.fst).Nodup
  codeIdsUnused : ∀ code ∈ fresh.recoveryCodes, store.recoveryCodes.lookup code.1 = none

section Drawn

variable {primitives : Primitives} {settings : AuthSettings} {store stored : AuthStore}
  {user : User} {fresh : Fresh} {now : Nat}

/-- A session that is drawn is added. -/
theorem exists_addSession (session : AuthSession)
    (unused : stored.sessions.lookup session.sessionId = none)
    (apart : ∀ other ∈ stored.sessions.rows, other.tokenHash ≠ session.tokenHash) :
    ∃ added, AuthRepository.addSession stored session = some added := by
  have free : ¬ ∃ other ∈ stored.sessions.rows, other.tokenHash = session.tokenHash := by
    rintro ⟨other, member, same⟩
    exact apart other member same
  refine ⟨{ stored with sessions := stored.sessions.put session }, ?_⟩
  rw [AuthRepository.addSession, if_neg free, Table.insert?_eq_some.mpr ⟨unused, rfl⟩, Option.map_some]

theorem proper_issue (drawn : Drawn primitives store fresh)
    (sessions : stored.sessions.rows ⊆ store.sessions.rows) {mfaEnabled elevated : Bool}
    {mfaVerifiedAt : Option Nat} :
    Proper (AuthService.issue primitives settings stored user fresh now mfaEnabled mfaVerifiedAt
      elevated) := by
  have unused : stored.sessions.lookup fresh.sessionId = none := by
    rw [Table.lookup_eq_none_iff]
    intro session member
    exact Table.lookup_eq_none_iff.mp drawn.sessionId session (sessions member)
  obtain ⟨added, isAdded⟩ := exists_addSession
    (AuthService.sessionRow primitives settings user fresh now mfaVerifiedAt elevated)
    unused fun session member => drawn.sessionToken session (sessions member)
  unfold AuthService.issue
  simp only [isAdded]
  exact proper_ok _

theorem proper_completeChallenge (drawn : Drawn primitives store fresh)
    (sessions : stored.sessions = store.sessions) {challenge : AuthChallenge}
    {recoveryCodes : List String} :
    Proper (AuthService.completeChallenge primitives settings stored user challenge recoveryCodes
      fresh now) := by
  unfold AuthService.completeChallenge
  dsimp only
  split
  · exact proper_invalidChallenge
  · rw [proper_map]
    apply proper_issue drawn
    intro session member
    exact sessions ▸ List.mem_of_mem_filter member

/-- Every code that is drawn has a hash. -/
theorem exists_hashedCodes (tables : CharTables) (hashes : Hashes) {codes : List (Uuid × String)}
    (generated : ∀ code ∈ codes, ∃ drawn, text code.2 = generateRecoveryCode drawn) :
    ∃ rows, (codes.mapM fun code => (hashRecoveryCode tables hashes (text code.2)).map
        fun codeHash => (code.1, codeHash)) = some rows ∧
      rows.map Prod.fst = codes.map Prod.fst := by
  induction codes with
  | nil => exact ⟨[], rfl, rfl⟩
  | cons code codes ih =>
      obtain ⟨⟨drawn, isDrawn⟩, later⟩ := List.forall_mem_cons.mp generated
      obtain ⟨rows, areRows, ids⟩ := ih later
      have readable : (hashRecoveryCode tables hashes (text code.2)).isSome := by
        rw [hashRecoveryCode_isSome, isDrawn]
        exact leavesAscii_of_ascii (generateRecoveryCode_ascii drawn)
      obtain ⟨codeHash, isHash⟩ := Option.isSome_iff_exists.mp readable
      refine ⟨(code.1, codeHash) :: rows, ?_, congrArg (code.1 :: ·) ids⟩
      simp [List.mapM_cons, isHash, areRows]

/-- The codes that are drawn replace the ones of the user. -/
theorem exists_replaceRecoveryCodes (drawn : Drawn primitives store fresh)
    (kept : stored.recoveryCodes = store.recoveryCodes) {userId : Uuid}
    {rows : List (Uuid × String)} (ids : rows.map Prod.fst = fresh.recoveryCodes.map Prod.fst) :
    ∃ replaced, AuthRepository.replaceRecoveryCodes stored userId rows now = some replaced := by
  have inserted : ∃ codes, (stored.recoveryCodes.delete fun code => code.userId = userId).insertAll?
      (rows.map fun row =>
        ({ recoveryCodeId := row.1, userId := userId, codeHash := row.2, createdAt := now } :
          RecoveryCode)) = some codes := by
    apply Table.exists_insertAll?
    · rw [List.map_map]
      exact ids ▸ drawn.codeIds
    · intro code member
      obtain ⟨row, isRow, rfl⟩ := List.mem_map.mp member
      rw [Table.lookup_delete_eq_none]
      intro found present
      have isDrawn : row.1 ∈ fresh.recoveryCodes.map Prod.fst := ids ▸ List.mem_map_of_mem isRow
      obtain ⟨code, isCode, same⟩ := List.mem_map.mp isDrawn
      rw [kept, ← same, drawn.codeIdsUnused code isCode] at present
      cases present
  obtain ⟨codes, isInserted⟩ := inserted
  exact ⟨{ stored with recoveryCodes := codes }, by
    rw [AuthRepository.replaceRecoveryCodes, isInserted, Option.map_some]⟩

end Drawn

/-! ## Calls -/

/-- A call that comes to have a value verified. -/
inductive MfaCall where
  | completeMfa (challengeToken : String) (expectedPurpose : Option ChallengePurpose)
      (fresh : Fresh)
  | reauthenticate (principal : SessionPrincipal) (password : Text)
  | changePassword (actor : SessionPrincipal) (currentPassword newPassword : Text)
      (fresh : Fresh)

variable (primitives : Primitives)

/-- The outcome of a call with a value is proper. -/
def MfaCall.Proper (settings : AuthSettings) (store : AuthStore)
    (value : Text) (now : Nat) : MfaCall → Prop
  | .completeMfa challengeToken expectedPurpose fresh =>
      Authentication.Proper (AuthService.completeMfa primitives settings store challengeToken value
        expectedPurpose fresh now)
  | .reauthenticate principal password =>
      Authentication.Proper (AuthService.reauthenticate primitives settings store principal password
        (some value) now)
  | .changePassword actor currentPassword newPassword fresh =>
      Authentication.Proper (AuthService.changePassword primitives settings store actor
        currentPassword newPassword (some value) fresh now)

/-- What a call comes with: fresh draws, and a password of the length that the API asks for. -/
def MfaCall.Admitted (store : AuthStore) : MfaCall → Prop
  | .completeMfa _ _ fresh => Drawn primitives store fresh
  | .reauthenticate _ _ => True
  | .changePassword _ _ newPassword _ => 12 ≤ newPassword.length ∧ newPassword.length ≤ 200

/-- The factor that a call comes to verify the value with, if it comes so far. -/
def MfaCall.reached? (settings : AuthSettings) (store : AuthStore)
    (now : Nat) : MfaCall → Option (MfaUse × MfaFactor)
  | .completeMfa challengeToken expectedPurpose _ =>
      if settings.totpEnabled = false then none
      else
        match AuthRepository.resolveChallenge store (primitives.hashToken challengeToken) now with
        | none => none
        | some challenge =>
            if expectedPurpose ≠ none ∧ expectedPurpose ≠ some challenge.purpose then none
            else
              match AuthRepository.getUser store challenge.userId,
                AuthRepository.getMfaFactor store challenge.userId with
              | some _, some factor =>
                  match challenge.purpose with
                  | .mfaEnrollment =>
                      if factor.confirmedAt.isSome then none else some (.enrollment, factor)
                  | .loginMfa => some (.possession, factor)
              | _, _ => none
  | .reauthenticate principal password =>
      match AuthService.checkPassword primitives
        (AuthRepository.findUserByUsername primitives.lower store principal.username) password with
      | .error _ => none
      | .ok _ =>
          if settings.totpEnabled = false then none
          else
            match AuthRepository.getMfaFactor store principal.userId with
            | none => none
            | some factor =>
                if factor.confirmedAt = none then none else some (.possession, factor)
  | .changePassword actor currentPassword _ _ =>
      match AuthService.checkPassword primitives
        (AuthRepository.findUserByUsername primitives.lower store actor.username)
        currentPassword with
      | .error _ => none
      | .ok (user, _) =>
          if user.userId ≠ actor.userId then none
          else
            match AuthRepository.getMfaFactor store actor.userId with
            | none => none
            | some factor =>
                if settings.totpEnabled = false ∨ factor.confirmedAt = none then none
                else some (.possession, factor)

/-- The password that is given for a user can be read, and so can the credential of the user. -/
def GivenReadable (hashes : Hashes) (base : Primitives) (store : AuthStore) (username : String)
    (password : Text) : Prop :=
  ∃ passwordHash, AuthService.credentialHash
      (AuthRepository.findUserByUsername base.lower store username) = some passwordHash ∧
    PasswordReadable hashes passwordHash password

/-- The call gives the right password of the user that its session is of. -/
def Authenticated (store : AuthStore) (principal : SessionPrincipal)
    (password : Text) : Prop :=
  ∃ user verification, AuthService.checkPassword primitives
      (AuthRepository.findUserByUsername primitives.lower store principal.username) password =
        .ok (user, verification) ∧ user.userId = principal.userId

/-- The passwords that a call comes with can be read: the one that it gives and, where it comes
to store it, the new one. -/
def MfaCall.PasswordsReadable (tables : CharTables) (hashes : Hashes) (base : Primitives)
    (settings : AuthSettings) (store : AuthStore) (value : Text) (now : Nat) : MfaCall → Prop
  | .completeMfa _ _ _ => True
  | .reauthenticate principal password =>
      GivenReadable hashes base store principal.username password
  | .changePassword actor currentPassword newPassword fresh =>
      GivenReadable hashes base store actor.username currentPassword ∧
        (Authenticated (hashes.primitives tables base) store actor currentPassword →
          (∀ reached ∈ (MfaCall.changePassword actor currentPassword newPassword fresh).reached?
              (hashes.primitives tables base) settings store now,
            Accepted (hashes.primitives tables base) store reached.2 value now) →
          ∀ c ∈ newPassword, c.isValidChar)

section Calls

variable {tables : CharTables} {hashes : Hashes} {base : Primitives} {settings : AuthSettings}
  {store stored : AuthStore} {factor : MfaFactor} {value : Text} {fresh : Fresh} {now : Nat}

/-- Verifying a value leaves the sessions alone. -/
theorem sessions_verifyMfaValue {primitives : Primitives} {allowRecovery : Bool}
    {result : Bool × Bool}
    (done : AuthService.verifyMfaValue primitives store factor value allowRecovery now =
      .ok (result, stored)) : stored.sessions = store.sessions := by
  unfold AuthService.verifyMfaValue at done
  split at done
  · cases done
  · split at done
    · cases done
    · cases done
      rfl
    · split at done
      · split at done
        · cases done
        · cases done
          rfl
      · cases done
        rfl

/-- So does the end of an enrollment. -/
theorem sessions_confirmEnrollment {primitives : Primitives} {userId : Uuid}
    (done : AuthService.confirmEnrollment primitives store userId factor value fresh now =
      .ok stored) : stored.sessions = store.sessions := by
  unfold AuthService.confirmEnrollment at done
  split at done
  · cases done
  · split at done
    · cases done
    · split at done
      · cases done
      · cases done
      · dsimp only at done
        split at done
        · cases done
        · split at done
          · cases done
          · split at done
            · cases done
            next replaced =>
              cases done
              obtain ⟨codes, -, rfl⟩ := Option.map_eq_some_iff.mp replaced
              rfl

/-- **The end of an enrollment comes to a verdict exactly on what is verifiable.** -/
theorem proper_confirmEnrollment_iff (clock : now < endOfDatetimes)
    (drawn : Drawn (hashes.primitives tables base) store fresh) (userId : Uuid)
    (unconfirmed : factor.confirmedAt.isSome = false) :
    Proper (AuthService.confirmEnrollment (hashes.primitives tables base) store userId factor value
      fresh now) ↔ Verifiable tables base .enrollment factor value now := by
  unfold AuthService.confirmEnrollment Verifiable
  rw [unconfirmed, if_neg (by decide),
    show (hashes.primitives tables base).decryptTotp = base.decryptTotp from rfl]
  cases base.decryptTotp factor.userId factor.encryptedTotpSecret factor.encryptionKeyVersion with
  | none => exact iff_of_true proper_invalidMfaCode fun _ opened => by cases opened
  | some secret =>
      simp only [Option.some.injEq, forall_eq', reduceCtorEq, false_imp_iff]
      by_cases readable : isTotpCode value = true → SecretReadable tables secret none now
      · refine iff_of_true ?_ (by split <;> simp_all [MfaUse.lastAcceptedStep])
        obtain ⟨found, matched⟩ := matchTotpStep_of_readable hashes base
          clock readable
        rw [matched]
        cases found with
        | none => exact proper_invalidMfaCode
        | some step =>
            obtain ⟨rows, areRows, ids⟩ := exists_hashedCodes tables hashes drawn.codes
            obtain ⟨replaced, isReplaced⟩ : ∃ replaced, AuthRepository.replaceRecoveryCodes
                (AuthRepository.acceptTotpStep (AuthRepository.confirmMfaFactor store userId now)
                  userId step now).2 userId rows now = some replaced :=
              exists_replaceRecoveryCodes drawn (by rfl) ids
            dsimp only
            split
            · exact proper_invalidMfaCode
            · rw [show (fresh.recoveryCodes.mapM fun code =>
                ((hashes.primitives tables base).hashRecoveryCode (text code.2)).map
                  fun codeHash => (code.1, codeHash)) = some rows from areRows]
              simp only [isReplaced]
              exact proper_ok _
      · obtain ⟨code, unreadable⟩ := Classical.not_imp.mp readable
        rw [matchTotpStep_of_unreadable code unreadable, if_pos code]
        exact iff_of_false not_proper_undeclared unreadable

/-- What follows a verification decides nothing more, where all its outcomes are proper. -/
theorem proper_possession_iff {α : Type} (clock : now < endOfDatetimes)
    {go : AuthStore → Except AuthError α}
    (proper : ∀ checked, checked.sessions = store.sessions → Proper (go checked)) :
    Proper (match AuthService.verifyMfaValue (hashes.primitives tables base) store factor value true
        now with
      | .error error => .error error
      | .ok ((verified, _), checked) =>
          if verified = false then .error .invalidMfaCode else go checked) ↔
      Verifiable tables base .possession factor value now := by
  rw [← proper_verifyMfaValue_iff hashes store clock]
  cases ended : AuthService.verifyMfaValue (hashes.primitives tables base) store factor value true
      now with
  | error error => exact proper_error.trans proper_error.symm
  | ok checked =>
      refine iff_of_true ?_ (proper_ok _)
      dsimp only
      split
      · exact proper_invalidMfaCode
      · exact proper checked.2 (sessions_verifyMfaValue ended)

/-- What follows the verification of a confirmed factor is reached where the value is
accepted. -/
theorem proper_possession_iff_of_confirmed {α : Type} (clock : now < endOfDatetimes)
    (found : AuthRepository.getMfaFactor store factor.userId = some factor)
    (confirmed : factor.confirmedAt.isSome) {go : AuthStore → Except AuthError α} {P : Prop}
    (proper : ∀ checked, Proper (go checked) ↔ P) :
    Proper (match AuthService.verifyMfaValue (hashes.primitives tables base) store factor value true
        now with
      | .error error => .error error
      | .ok ((verified, _), checked) =>
          if verified = false then .error .invalidMfaCode else go checked) ↔
      Verifiable tables base .possession factor value now ∧
        (Accepted (hashes.primitives tables base) store factor value now → P) := by
  rw [← proper_verifyMfaValue_iff hashes store clock]
  cases ended : AuthService.verifyMfaValue (hashes.primitives tables base) store factor value true
      now with
  | error error =>
      refine ⟨fun declared => ?_, fun both => proper_error.mpr (proper_error.mp both.1)⟩
      exact ⟨proper_error.mpr (proper_error.mp declared), fun accepted =>
        absurd accepted (not_accepted_of_error ended (proper_error.mp declared))⟩
  | ok result =>
      obtain ⟨⟨verified, recovered⟩, checked⟩ := result
      rw [← accepted_iff found confirmed ended]
      cases verified with
      | false => exact iff_of_true proper_invalidMfaCode ⟨proper_ok _, by simp⟩
      | true => simp [proper]

theorem proper_completeMfa_iff (clock : now < endOfDatetimes) {challengeToken : String}
    {expectedPurpose : Option ChallengePurpose}
    (drawn : Drawn (hashes.primitives tables base) store fresh) :
    (MfaCall.completeMfa challengeToken expectedPurpose fresh).Proper
        (hashes.primitives tables base) settings store value now ↔
      ∀ reached ∈ (MfaCall.completeMfa challengeToken expectedPurpose fresh).reached?
          (hashes.primitives tables base) settings store now,
        Verifiable tables base reached.1 reached.2 value now := by
  simp only [MfaCall.Proper, MfaCall.reached?]
  unfold AuthService.completeMfa
  by_cases disabled : settings.totpEnabled = false
  · rw [if_pos disabled, if_pos disabled]
    exact iff_of_true (proper_error.mpr rfl) (by simp)
  rw [if_neg disabled, if_neg disabled]
  cases AuthRepository.resolveChallenge store
    ((hashes.primitives tables base).hashToken challengeToken) now with
  | none => exact iff_of_true proper_invalidChallenge (by simp)
  | some challenge =>
      by_cases other : expectedPurpose ≠ none ∧ expectedPurpose ≠ some challenge.purpose
      · simp only [if_pos other]
        exact iff_of_true proper_invalidChallenge (by simp)
      simp only [if_neg other]
      cases AuthRepository.getUser store challenge.userId with
      | none => exact iff_of_true proper_invalidChallenge (by simp)
      | some user =>
      cases AuthRepository.getMfaFactor store challenge.userId with
      | none => exact iff_of_true proper_invalidChallenge (by simp)
      | some factor =>
      cases challenge.purpose with
      | mfaEnrollment =>
          by_cases confirmed : factor.confirmedAt.isSome = true
          · simp only [AuthService.confirmEnrollment, if_pos confirmed]
            exact iff_of_true proper_invalidChallenge (by simp)
          simp only [if_neg confirmed, Option.mem_some_iff, forall_eq']
          rw [← proper_confirmEnrollment_iff clock drawn user.userId
            (by simpa using confirmed)]
          cases ended : AuthService.confirmEnrollment (hashes.primitives tables base) store
              user.userId factor value fresh now with
          | error error => exact proper_error.trans proper_error.symm
          | ok stored =>
              exact iff_of_true (proper_completeChallenge drawn (sessions_confirmEnrollment ended))
                (proper_ok _)
      | loginMfa =>
          simp only [Option.mem_some_iff, forall_eq']
          exact proper_possession_iff clock fun checked kept => proper_completeChallenge drawn kept

theorem proper_reauthenticate_iff (clock : now < endOfDatetimes) {principal : SessionPrincipal}
    {password : Text} :
    (MfaCall.reauthenticate principal password).Proper (hashes.primitives tables base) settings
        store value now ↔
      (MfaCall.reauthenticate principal password).PasswordsReadable tables hashes base settings
          store value now ∧
        ∀ reached ∈ (MfaCall.reauthenticate principal password).reached?
            (hashes.primitives tables base) settings store now,
          Verifiable tables base reached.1 reached.2 value now := by
  simp only [MfaCall.Proper, MfaCall.reached?, MfaCall.PasswordsReadable, GivenReadable]
  rw [← proper_checkPassword_iff]
  unfold AuthService.reauthenticate
  rw [show (hashes.primitives tables base).lower = base.lower from rfl]
  cases AuthService.checkPassword (hashes.primitives tables base)
    (AuthRepository.findUserByUsername base.lower store principal.username) password with
  | error error =>
      simp only [reduceCtorEq, Option.mem_def, false_imp_iff, implies_true, and_true]
      exact proper_error.trans proper_error.symm
  | ok user =>
      simp only [proper_ok, true_and]
      by_cases disabled : settings.totpEnabled = false
      · simp only [if_pos disabled]
        refine iff_of_true ?_ (by simp)
        split
        · exact proper_error.mpr rfl
        · exact proper_ok _
      simp only [if_neg disabled]
      cases AuthRepository.getMfaFactor store principal.userId with
      | none => exact iff_of_true proper_invalidMfaCode (by simp)
      | some factor =>
          by_cases unconfirmed : factor.confirmedAt = none
          · simp only [if_pos unconfirmed]
            exact iff_of_true proper_invalidMfaCode (by simp)
          simp only [if_neg unconfirmed, Option.mem_some_iff, forall_eq']
          refine proper_possession_iff clock fun checked _ => ?_
          split
          · exact proper_error.mpr rfl
          · exact proper_ok _

theorem proper_changePassword_iff (clock : now < endOfDatetimes) {actor : SessionPrincipal}
    {currentPassword newPassword : Text}
    (length : 12 ≤ newPassword.length ∧ newPassword.length ≤ 200) :
    (MfaCall.changePassword actor currentPassword newPassword fresh).Proper
        (hashes.primitives tables base) settings store value now ↔
      (MfaCall.changePassword actor currentPassword newPassword fresh).PasswordsReadable tables
          hashes base settings store value now ∧
        ∀ reached ∈ (MfaCall.changePassword actor currentPassword newPassword fresh).reached?
            (hashes.primitives tables base) settings store now,
          Verifiable tables base reached.1 reached.2 value now := by
  have valid : AuthService.validatePassword newPassword = .ok () := by
    rw [AuthService.validatePassword, if_neg (by omega)]
  simp only [MfaCall.Proper, MfaCall.reached?, MfaCall.PasswordsReadable, GivenReadable,
    Authenticated]
  rw [← @proper_checkPassword_iff tables hashes base]
  unfold AuthService.changePassword
  rw [show (hashes.primitives tables base).lower = base.lower from rfl, valid]
  cases AuthService.checkPassword (hashes.primitives tables base)
    (AuthRepository.findUserByUsername base.lower store actor.username) currentPassword with
  | error error => simp
  | ok checked =>
      obtain ⟨user, verification⟩ := checked
      simp only [proper_ok, true_and, Except.ok.injEq, Prod.mk.injEq]
      by_cases other : user.userId ≠ actor.userId
      · simp only [if_pos other]
        refine iff_of_true (proper_error.mpr rfl) ⟨?_, by simp⟩
        rintro ⟨_, _, ⟨rfl, rfl⟩, same⟩
        exact absurd same other
      have authenticated : ∃ user' verification', (user = user' ∧ verification = verification') ∧
          user'.userId = actor.userId := ⟨user, verification, ⟨rfl, rfl⟩, not_not.mp other⟩
      simp only [if_neg other, authenticated, true_implies]
      have changes : ∀ checked : AuthStore, Proper
          ((AuthService.hashPassword (hashes.primitives tables base) fresh.salt newPassword).map
            fun passwordHash => AuthRepository.deleteUserSessions
              (AuthRepository.updatePasswordHash checked actor.userId passwordHash now)
              actor.userId) ↔ ∀ c ∈ newPassword, c.isValidChar := fun checked =>
        proper_map.trans proper_hashPassword_iff
      cases held : AuthRepository.getMfaFactor store actor.userId with
      | none => simp [changes]
      | some factor =>
          by_cases unasked : settings.totpEnabled = false ∨ factor.confirmedAt = none
          · simp [if_pos unasked, changes]
          simp only [if_neg unasked, Option.mem_some_iff, forall_eq']
          have owner : factor.userId = actor.userId := Table.key_of_lookup held
          rw [← owner] at held
          rw [and_comm]
          exact proper_possession_iff_of_confirmed clock held
            (Option.isSome_iff_ne_none.mpr (not_or.mp unasked).2) fun checked => changes checked

/-- **A submitted value gets a proper verdict** if and only if the passwords that the call
comes with can be read and, where it comes to verify the value with a factor, it can do so. -/
theorem proper_iff (clock : now < endOfDatetimes) (call : MfaCall)
    (admitted : call.Admitted (hashes.primitives tables base) store) :
    call.Proper (hashes.primitives tables base) settings store value now ↔
      call.PasswordsReadable tables hashes base settings store value now ∧
        ∀ reached ∈ call.reached? (hashes.primitives tables base) settings store now,
          Verifiable tables base reached.1 reached.2 value now := by
  cases call with
  | completeMfa challengeToken expectedPurpose fresh =>
      exact (proper_completeMfa_iff clock admitted).trans (and_iff_right trivial).symm
  | reauthenticate principal password => exact proper_reauthenticate_iff clock
  | changePassword actor currentPassword newPassword fresh =>
      exact proper_changePassword_iff clock admitted

end Calls

/-! ## An accented value, and a password that is no text -/

/-- What the hashes of passwords begin with. -/
def argon2Prefix : Bytes := (text "$argon2id").map UInt8.ofNat

/-- Digests that say nothing, and passwords that are written into their hashes. -/
def blankHashes : Hashes where
  sha256 _ := "digest"
  hmacSha1 _ _ := List.replicate 20 0
  length_hmacSha1 _ _ := List.length_replicate
  argon2 _ password := "$argon2id" ++ String.ofList (password.map fun byte => Char.ofNat byte.toNat)
  isArgon2 passwordHash := passwordHash.take 9 == argon2Prefix
  verifies passwordHash password := passwordHash == argon2Prefix ++ password
  needsRehash _ := some false
  dummyPasswordHash := "$argon2idproject-forge-dummy-password"

/-- A key ring with one secret. -/
def plainBase : Primitives where
  canonicalUsername := id
  lower := id
  quote := id
  hashToken := id
  hashPassword _ _ := none
  verifyPassword _ _ := none
  totpCode _ _ := none
  hashRecoveryCode _ := none
  hmacSubject _ scope subject := scope ++ subject
  encryptTotp _ _ _ := ([], 1)
  decryptTotp _ _ _ := some "JBSWY3DPEHPK3PXPJBSWY3DPEHPK3PXP"

/-- An operator with a confirmed factor, a recovery code and a challenge to log in. -/
def challenged : AuthStore :=
  { AuthStore.empty with
    users := Table.empty.put
      { AuthService.newUser 1 "operator" .active .operator false 0 with
        passwordHash := some "$argon2idbattery staple" }
    factors := Table.empty.put
      { userId := 1
        encryptedTotpSecret := []
        encryptionKeyVersion := 1
        confirmedAt := some 0
        createdAt := 0
        updatedAt := 0 }
    recoveryCodes := Table.empty.put
      { recoveryCodeId := 1
        userId := 1
        codeHash := "digest"
        createdAt := 0 }
    challenges := Table.empty.put
      { challengeId := 1
        userId := 1
        tokenHash := "challenge"
        purpose := .loginMfa
        expiresAt := seconds 300
        createdAt := 0 } }

/-- What is drawn for the next session. -/
def drawnSession : Fresh where
  sessionId := 1
  sessionToken := "session"
  csrfToken := "csrf"
  challengeId := 2
  challengeToken := "unused"
  totpSecret := "unused"

/-- The session of the operator. -/
def operatorSession : SessionPrincipal where
  sessionId := 7
  userId := 1
  username := "operator"
  role := .operator
  permissions := permissionsForRole .operator
  mfaEnabled := true
  mfaEnrollmentRequired := false
  mfaVerifiedAt := none
  reauthenticatedAt := none
  elevatedUntil := none
  csrfHash := "csrf"
  expiresAt := seconds 300

/-- The three calls that the operator can make. -/
def operatorCalls : List MfaCall :=
  [.completeMfa "challenge" none drawnSession,
    .reauthenticate operatorSession (text "battery staple"),
    .changePassword operatorSession (text "battery staple") (text "correct horse") drawnSession]

/-- Two of them with lone surrogates for the password, and one with a new password of them. -/
def surrogateCalls : List MfaCall :=
  [.reauthenticate operatorSession [0xD800],
    .changePassword operatorSession [0xD800] (text "correct horse") drawnSession,
    .changePassword operatorSession (text "battery staple") (List.replicate 12 0xD800)
      drawnSession]

theorem drawn_drawnSession :
    Drawn (blankHashes.primitives latin1 plainBase) challenged drawnSession where
  sessionId := rfl
  sessionToken _ member := absurd member List.not_mem_nil
  codes _ member := absurd member List.not_mem_nil
  codeIds := List.nodup_nil
  codeIdsUnused _ member := absurd member List.not_mem_nil

/-- A value of letters gets a verdict. -/
theorem proper_iff_letters : (MfaCall.completeMfa "challenge" none drawnSession).Proper
    (blankHashes.primitives latin1 plainBase) {} challenged (text "abcde-fghij") 0 := by
  refine (proper_iff (by decide) (.completeMfa "challenge" none drawnSession)
    drawn_drawnSession).mpr ⟨trivial, ?_⟩
  intro reached isReached secret _
  rw [if_neg (by decide)]
  exact fun _ => leavesAscii_of_ascii (by decide)

/-- **Six accented letters** end each of the calls with an exception that no one declares, and
so do lone surrogates in a password beside a value that would be accepted. -/
theorem proper_fails :
    (operatorCalls.Forall fun call =>
      call.Admitted (blankHashes.primitives latin1 plainBase) challenged ∧
        ¬ call.Proper (blankHashes.primitives latin1 plainBase) {} challenged (text "éééééé") 0) ∧
    surrogateCalls.Forall fun call =>
      call.Admitted (blankHashes.primitives latin1 plainBase) challenged ∧
        ¬ call.Proper (blankHashes.primitives latin1 plainBase) {} challenged
          (text "abcde-fghij") 0 := by
  have undeclared : ∀ {α : Type} {outcome : Except AuthError α}, outcome = .error .undeclared →
      ¬ Proper outcome := by
    rintro α outcome rfl
    exact not_proper_undeclared
  constructor
  · refine List.forall_iff_forall_mem.mpr fun call member => ?_
    simp only [operatorCalls, List.mem_cons, List.not_mem_nil, or_false] at member
    rcases member with rfl | rfl | rfl
    · exact ⟨drawn_drawnSession, undeclared rfl⟩
    · exact ⟨trivial, undeclared rfl⟩
    · exact ⟨⟨by decide, by decide⟩, undeclared rfl⟩
  · refine List.forall_iff_forall_mem.mpr fun call member => ?_
    simp only [surrogateCalls, List.mem_cons, List.not_mem_nil, or_false] at member
    rcases member with rfl | rfl | rfl
    · exact ⟨trivial, undeclared rfl⟩
    · exact ⟨⟨by decide, by decide⟩, undeclared rfl⟩
    · exact ⟨⟨by decide, by decide⟩, undeclared rfl⟩

end OpsComposer.Authentication
