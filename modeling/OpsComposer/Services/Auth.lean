import OpsComposer.Foundations.Text
import OpsComposer.Repositories.Auth
import OpsComposer.Services.WorkerCoordinator

/-!
# The authentication service

`AuthService` of `auth/service.py`.  Every operation is one unit of work, a
function of the committed store to an answer and the store it commits; `login`
alone commits its two rate-limit counters in transactions of their own.  Readings
of the clock, fresh identifiers and fresh secrets are arguments.

Cryptography enters as `Primitives`: hashing, sealing and the code of a time step
are arbitrary functions.
-/

set_option autoImplicit false

namespace OpsComposer.Services

open Domain Foundations Repositories

/-! ## Primitives and settings -/

/-- `PasswordVerification`. -/
structure PasswordVerification where
  valid : Bool
  needsRehash : Bool

/-- The functions of `auth/security.py`, of the key ring and of the string library
that the service only passes values through. -/
structure Primitives where
  /-- `username.strip().casefold()`. -/
  canonicalUsername : String → String
  /-- `lower(…)` of the database. -/
  lower : String → String
  /-- `quote(…, safe="")`. -/
  quote : String → String
  hashToken : String → String
  /-- `hash_password`, with the salt it draws; it may raise. -/
  hashPassword : (salt : Nat) → Text → Option String
  /-- `verify_password`, which may raise. -/
  verifyPassword : Option String → Text → Option PasswordVerification
  /-- `totp_code(secret, step)`, which raises where the secret cannot be decoded. -/
  totpCode : String → Nat → Option String
  /-- `hash_recovery_code`, which may raise. -/
  hashRecoveryCode : Text → Option String
  hmacSubject : (secret scope subject : String) → String
  /-- `encrypt_bytes("totp", …)`, with the nonce it draws. -/
  encryptTotp : (nonce : Nat) → Uuid → String → List UInt8 × Nat
  /-- `decrypt_bytes("totp", …)`, which may raise. -/
  decryptTotp : Uuid → List UInt8 → Nat → Option String

/-- The settings that the service reads. -/
structure AuthSettings where
  totpEnabled : Bool := true
  sessionTtlSeconds : Nat := 1209600
  authLoginIpLimit : Nat := 30
  authLoginIpWindowSeconds : Nat := 300
  authLoginUsernameIpLimit : Nat := 5
  authLoginUsernameIpWindowSeconds : Nat := 300
  authRateLimitSecret : String := "development-only-auth-rate-limit-secret"

/-- What an operation draws at random. -/
structure Fresh where
  sessionId : Uuid
  sessionToken : String
  csrfToken : String
  challengeId : Uuid
  challengeToken : String
  totpSecret : String
  salt : Nat := 0
  nonce : Nat := 0
  /-- The recovery codes with the ids of their rows. -/
  recoveryCodes : List (Uuid × String) := []

/-- `len(code) == 6 and code.isascii() and code.isdigit()`. -/
def isTotpCode (code : Text) : Bool := code.length == 6 && code.all fun c => 48 ≤ c && c ≤ 57

/-- The first of some steps that has the code; `ValueError` if one of them cannot be
computed before. -/
def firstMatch (primitives : Primitives) (secret : String) (code : Text) :
    List Nat → Except AuthError (Option Nat)
  | [] => .ok none
  | step :: steps =>
      match primitives.totpCode secret step with
      | none => .error .undeclared
      | some computed =>
          if text computed = code then .ok (some step)
          else firstMatch primitives secret code steps

/-- The steps that are tried: the current one, the one before and the one after, in this
order, without those that are not newer than the last accepted one. -/
def triedSteps (now : Nat) (lastAcceptedStep : Option Nat) : List Nat :=
  let current := now / seconds 30
  let steps := current :: (if current = 0 then [] else [current - 1]) ++ [current + 1]
  steps.filter fun step => ∀ last ∈ lastAcceptedStep, last < step

/-- The steps that are tried are next to the current one. -/
theorem mem_triedSteps {now step : Nat} {lastAcceptedStep : Option Nat} :
    step ∈ triedSteps now lastAcceptedStep ↔ now / seconds 30 ≤ step + 1 ∧
      step ≤ now / seconds 30 + 1 ∧ ∀ last ∈ lastAcceptedStep, last < step := by
  unfold triedSteps
  generalize now / seconds 30 = current
  have near : step ∈ current :: (if current = 0 then [] else [current - 1]) ++ [current + 1] ↔
      current ≤ step + 1 ∧ step ≤ current + 1 := by
    by_cases first : current = 0
    · simp only [first, if_true, List.cons_append, List.nil_append, List.mem_cons,
        List.not_mem_nil, or_false]
      omega
    · simp only [first, if_false, List.cons_append, List.nil_append, List.mem_cons,
        List.not_mem_nil, or_false]
      omega
  rw [List.mem_filter, near, decide_eq_true_eq, and_assoc]

/-- The step that a code matches. -/
def matchTotpStep (primitives : Primitives) (secret : String) (code : Text) (now : Nat)
    (lastAcceptedStep : Option Nat := none) : Except AuthError (Option Nat) :=
  if isTotpCode code = false then .ok none
  else firstMatch primitives secret code (triedSteps now lastAcceptedStep)

/-- `IssuedSession`. -/
structure IssuedSession where
  principal : SessionPrincipal
  sessionToken : String
  csrfToken : String

/-- `IssuedChallenge`. -/
structure IssuedChallenge where
  challengeId : Uuid
  userId : Uuid
  username : String
  purpose : ChallengePurpose
  expiresAt : Nat
  challengeToken : String
  enrollmentSecret : Option String
  otpauthUri : Option String

/-- What a login or an activation comes to. -/
inductive AuthResult where
  | session (issued : IssuedSession)
  | challenge (issued : IssuedChallenge)

namespace AuthService

/-- `AUTH_CHALLENGE_TTL`. -/
def authChallengeTtl : Nat := seconds 300
/-- `ACTIVATION_TTL`. -/
def activationTtl : Nat := seconds 86400
/-- `REAUTHENTICATION_TTL`. -/
def reauthenticationTtl : Nat := seconds 600

/-! ## Issuing -/

section Issuing

variable (primitives : Primitives) (settings : AuthSettings) (store : AuthStore) (user : User)
  (fresh : Fresh) (now : Nat)

/-- The row that `_issue` adds. -/
def sessionRow (mfaVerifiedAt : Option Nat) (elevated : Bool) : AuthSession where
  sessionId := fresh.sessionId
  userId := user.userId
  tokenHash := primitives.hashToken fresh.sessionToken
  csrfHash := primitives.hashToken fresh.csrfToken
  expiresAt := now + seconds settings.sessionTtlSeconds
  createdAt := now
  mfaVerifiedAt := mfaVerifiedAt
  reauthenticatedAt := if elevated then some now else none
  elevatedUntil := if elevated then some (now + reauthenticationTtl) else none

/-- `_issue`. -/
def issue (mfaEnabled : Bool) (mfaVerifiedAt : Option Nat) (elevated : Bool) :
    Except AuthError (IssuedSession × AuthStore) :=
  let session := sessionRow primitives settings user fresh now mfaVerifiedAt elevated
  match AuthRepository.addSession store session with
  | none => .error .undeclared
  | some stored =>
      .ok ({ principal :=
              { sessionId := session.sessionId
                userId := user.userId
                username := user.username
                role := user.role
                permissions := permissionsForRole user.role
                mfaEnabled := mfaEnabled
                mfaEnrollmentRequired := user.mfaEnrollmentRequired
                mfaVerifiedAt := mfaVerifiedAt
                reauthenticatedAt := session.reauthenticatedAt
                elevatedUntil := session.elevatedUntil
                csrfHash := session.csrfHash
                expiresAt := session.expiresAt }
             sessionToken := fresh.sessionToken
             csrfToken := fresh.csrfToken }, stored)

/-- The factor that an enrollment starts with. -/
def pendingFactor : MfaFactor where
  userId := user.userId
  encryptedTotpSecret := (primitives.encryptTotp fresh.nonce user.userId fresh.totpSecret).1
  encryptionKeyVersion := (primitives.encryptTotp fresh.nonce user.userId fresh.totpSecret).2
  createdAt := now
  updatedAt := now

/-- The row that `_issue_challenge` adds. -/
def challengeRow (purpose : ChallengePurpose) : AuthChallenge where
  challengeId := fresh.challengeId
  userId := user.userId
  tokenHash := primitives.hashToken fresh.challengeToken
  purpose := purpose
  expiresAt := now + authChallengeTtl
  createdAt := now

/-- The URI that an authenticator reads the secret from. -/
def otpauthUri : String :=
  "otpauth://totp/" ++ primitives.quote ("OpsComposer:" ++ user.username) ++ "?secret=" ++
    fresh.totpSecret ++ "&issuer=OpsComposer&algorithm=SHA1&digits=6&period=30"

/-- `_issue_challenge`. -/
def issueChallenge (purpose : ChallengePurpose) (beginEnrollment : Bool) :
    Except AuthError (IssuedChallenge × AuthStore) :=
  if settings.totpEnabled = false then .error .totpDisabled
  else
    let enrolling :=
      if beginEnrollment then
        AuthRepository.putMfaFactor store (pendingFactor primitives user fresh now)
      else store
    let challenge := challengeRow primitives user fresh now purpose
    match AuthRepository.addChallenge enrolling challenge with
    | none => .error .undeclared
    | some stored =>
        .ok ({ challengeId := challenge.challengeId
               userId := user.userId
               username := user.username
               purpose := purpose
               expiresAt := challenge.expiresAt
               challengeToken := fresh.challengeToken
               enrollmentSecret := if beginEnrollment then some fresh.totpSecret else none
               otpauthUri :=
                 if beginEnrollment then some (otpauthUri primitives user fresh) else none },
          stored)

end Issuing

/-! ## Checking passwords -/

/-- The hash of a password; what `hash_password` raises is not caught. -/
def hashPassword (primitives : Primitives) (salt : Nat) (password : Text) :
    Except AuthError String :=
  match primitives.hashPassword salt password with
  | none => .error .undeclared
  | some passwordHash => .ok passwordHash

/-- The hash of the `PasswordCredential` that `find_user_by_username` makes of a row, which is
stripped and may not be empty. -/
def credentialHash (user? : Option User) : Option (Option String) :=
  match user?.bind fun user => user.passwordHash with
  | none => some none
  | some passwordHash =>
      if stripped passwordHash = "" then none else some (some (stripped passwordHash))

variable (primitives : Primitives) (settings : AuthSettings)

/-- The user that a password is the one of.  It is verified also where there is no user, and
what `verify_password` raises is not caught. -/
def checkPassword (user? : Option User) (password : Text) :
    Except AuthError (User × PasswordVerification) :=
  match (credentialHash user?).bind fun passwordHash =>
    primitives.verifyPassword passwordHash password with
  | none => .error .undeclared
  | some verification =>
      match user? with
      | none => .error .invalidCredentials
      | some user =>
          if verification.valid = false then .error .invalidCredentials
          else .ok (user, verification)

/-- No one passes but the user. -/
theorem user_of_checkPassword {primitives : Primitives} {user? : Option User} {password : Text}
    {user : User} {verification : PasswordVerification}
    (checked : checkPassword primitives user? password = .ok (user, verification)) :
    user? = some user := by
  unfold checkPassword at checked
  split at checked
  · cases checked
  · split at checked
    · cases checked
    · split at checked
      · cases checked
      · cases checked
        rfl

/-! ## Signing in -/

/-- `RateLimitSpec`. -/
structure RateLimitSpec where
  scope : String
  subject : String
  maximum : Nat
  windowSeconds : Nat

/-- The window of an instant, as `fixed_window` computes it. -/
def fixedWindow (now windowSeconds : Nat) : Nat × Nat :=
  let epoch := now / 1000000
  let start := epoch - epoch % windowSeconds
  (seconds start, seconds (start + windowSeconds))

/-- `_consume_rate_limit`: the count is committed also when it is too high. -/
def consumeRateLimit (primitives : Primitives) (settings : AuthSettings) (store : AuthStore)
    (spec : RateLimitSpec) (now : Nat) : Except AuthError RateLimitKey × AuthStore :=
  let window := fixedWindow now spec.windowSeconds
  let key : RateLimitKey :=
    { scope := spec.scope
      subjectHash := primitives.hmacSubject settings.authRateLimitSecret spec.scope spec.subject
      windowStartedAt := window.1 }
  let consumed := AuthRepository.consumeRateLimit store key window.2
  if spec.maximum < consumed.1 then
    (.error (.authRateLimited (max 1 ((window.2 - now + 999999) / 1000000))), consumed.2)
  else (.ok key, consumed.2)

/-- What a login comes to once the password is right. -/
def signIn (store : AuthStore) (user : User)
    (fresh : Fresh) (now : Nat) : Except AuthError (AuthResult × AuthStore) :=
  let factorEnabled := AuthRepository.factorEnabled store user.userId
  let enrollmentRequired :=
    user.mfaEnrollmentRequired || (user.role.mfaRequired && !factorEnabled)
  if settings.totpEnabled = false then
    (issue primitives settings store user fresh now factorEnabled none true).map fun issued =>
      (.session issued.1, issued.2)
  else if enrollmentRequired then
    (issueChallenge primitives settings store user fresh now .mfaEnrollment true).map fun issued =>
      (.challenge issued.1, issued.2)
  else if factorEnabled then
    (issueChallenge primitives settings store user fresh now .loginMfa false).map fun issued =>
      (.challenge issued.1, issued.2)
  else
    (issue primitives settings store user fresh now false none false).map fun issued =>
      (.session issued.1, issued.2)

/-- The last transaction of `login`. -/
def loginUser (store : AuthStore)
    (username : String) (password : Text) (bucket : RateLimitKey) (fresh : Fresh) (now : Nat) :
    Except AuthError (AuthResult × AuthStore) :=
  match checkPassword primitives
    (AuthRepository.findUserByUsername primitives.lower store username) password with
  | .error error => .error error
  | .ok (user, verification) =>
      if user.status ≠ .active then .error .invalidCredentials
      else
        let rehashed :=
          if verification.needsRehash then
            (hashPassword primitives fresh.salt password).map fun passwordHash =>
              AuthRepository.updatePasswordHash store user.userId passwordHash now
          else .ok store
        match rehashed with
        | .error error => .error error
        | .ok rehashed =>
            signIn primitives settings (AuthRepository.clearRateLimit rehashed bucket) user fresh
              now

/-- `login`: two rate limits, each committed by itself, and then the password.  A login that
fails leaves the counters as the limits have left them. -/
def login (primitives : Primitives) (settings : AuthSettings) (store : AuthStore)
    (username : String) (password : Text) (clientKey : String) (fresh : Fresh) (now : Nat) :
    Except AuthError AuthResult × AuthStore :=
  let normalized := primitives.canonicalUsername username
  match consumeRateLimit primitives settings store
    { scope := "login:ip"
      subject := clientKey
      maximum := settings.authLoginIpLimit
      windowSeconds := settings.authLoginIpWindowSeconds } now with
  | (.error error, limited) => (.error error, limited)
  | (.ok _, limited) =>
      match consumeRateLimit primitives settings limited
        { scope := "login:username_ip"
          subject := normalized ++ "\x00" ++ clientKey
          maximum := settings.authLoginUsernameIpLimit
          windowSeconds := settings.authLoginUsernameIpWindowSeconds } now with
      | (.error error, limited) => (.error error, limited)
      | (.ok bucket, limited) =>
          match loginUser primitives settings limited normalized password bucket fresh now with
          | .error error => (.error error, limited)
          | .ok (result, stored) => (.ok result, stored)

/-! ## Second factors -/

/-- `_verify_mfa_value`: a code of the factor, or else an unused recovery code. -/
def verifyMfaValue (store : AuthStore) (factor : MfaFactor)
    (value : Text) (allowRecovery : Bool) (now : Nat) :
    Except AuthError ((Bool × Bool) × AuthStore) :=
  match primitives.decryptTotp factor.userId factor.encryptedTotpSecret
    factor.encryptionKeyVersion with
  | none => .error .invalidMfaCode
  | some secret =>
      match matchTotpStep primitives secret value now factor.lastAcceptedStep with
      | .error error => .error error
      | .ok (some step) =>
          let accepted := AuthRepository.acceptTotpStep store factor.userId step now
          .ok ((accepted.1, false), accepted.2)
      | .ok none =>
          if allowRecovery then
            match primitives.hashRecoveryCode value with
            | none => .error .undeclared
            | some codeHash =>
                let consumed :=
                  AuthRepository.consumeRecoveryCode store factor.userId codeHash now
                .ok ((consumed.1, consumed.1), consumed.2)
          else .ok ((false, false), store)

/-- The part of `complete_mfa` that ends an enrollment. -/
def confirmEnrollment (store : AuthStore) (userId : Uuid)
    (factor : MfaFactor) (value : Text) (fresh : Fresh) (now : Nat) :
    Except AuthError AuthStore :=
  if factor.confirmedAt.isSome then .error .invalidChallenge
  else
    match primitives.decryptTotp factor.userId factor.encryptedTotpSecret
      factor.encryptionKeyVersion with
    | none => .error .invalidMfaCode
    | some secret =>
        match matchTotpStep primitives secret value now with
        | .error error => .error error
        | .ok none => .error .invalidMfaCode
        | .ok (some step) =>
            let accepted := AuthRepository.acceptTotpStep
              (AuthRepository.confirmMfaFactor store userId now) userId step now
            if accepted.1 = false then .error .invalidMfaCode
            else
              match fresh.recoveryCodes.mapM fun code =>
                  (primitives.hashRecoveryCode (text code.2)).map
                    fun codeHash => (code.1, codeHash) with
              | none => .error .undeclared
              | some rows =>
                  match AuthRepository.replaceRecoveryCodes accepted.2 userId rows now with
                  | none => .error .undeclared
                  | some stored => .ok stored

/-- `CompletedMfa`. -/
structure CompletedMfa where
  issued : IssuedSession
  recoveryCodes : List String := []

/-- The part of `complete_mfa` after the verification. -/
def completeChallenge (store : AuthStore)
    (user : User) (challenge : AuthChallenge) (recoveryCodes : List String) (fresh : Fresh)
    (now : Nat) : Except AuthError (CompletedMfa × AuthStore) :=
  let consumed := AuthRepository.markChallengeConsumed store challenge.challengeId now
  if consumed.1 = false then .error .invalidChallenge
  else
    (issue primitives settings (AuthRepository.deleteUserSessions consumed.2 user.userId) user
      fresh now true (some now) true).map fun issued =>
        ({ issued := issued.1, recoveryCodes := recoveryCodes }, issued.2)

/-- `complete_mfa`: what the challenge is for decides whether the value ends an enrollment or
shows the possession of a factor. -/
def completeMfa (store : AuthStore)
    (challengeToken : String) (value : Text) (expectedPurpose : Option ChallengePurpose)
    (fresh : Fresh) (now : Nat) : Except AuthError (CompletedMfa × AuthStore) :=
  if settings.totpEnabled = false then .error .totpDisabled
  else
    match AuthRepository.resolveChallenge store (primitives.hashToken challengeToken) now with
    | none => .error .invalidChallenge
    | some challenge =>
        if expectedPurpose ≠ none ∧ expectedPurpose ≠ some challenge.purpose then
          .error .invalidChallenge
        else
          match AuthRepository.getUser store challenge.userId,
            AuthRepository.getMfaFactor store challenge.userId with
          | some user, some factor =>
              match challenge.purpose with
              | .mfaEnrollment =>
                  match confirmEnrollment primitives store user.userId factor value fresh now with
                  | .error error => .error error
                  | .ok confirmed =>
                      completeChallenge primitives settings confirmed
                        { user with mfaEnrollmentRequired := false } challenge
                        (fresh.recoveryCodes.map Prod.snd) fresh now
              | .loginMfa =>
                  match verifyMfaValue primitives store factor value true now with
                  | .error error => .error error
                  | .ok ((verified, _), checked) =>
                      if verified = false then .error .invalidMfaCode
                      else completeChallenge primitives settings checked user challenge [] fresh now
          | _, _ => .error .invalidChallenge

/-- `begin_mfa_enrollment`: the session alone is asked for, and a factor that is there loses its
confirmation. -/
def beginMfaEnrollment (store : AuthStore)
    (principal : SessionPrincipal) (fresh : Fresh) (now : Nat) :
    Except AuthError (IssuedChallenge × AuthStore) :=
  if settings.totpEnabled = false then .error .totpDisabled
  else
    match AuthRepository.getUser store principal.userId with
    | none => .error .invalidSession
    | some user =>
        -- the copy with the flag set is what the challenge is made of; it is not stored
        issueChallenge primitives settings store { user with mfaEnrollmentRequired := true } fresh
          now .mfaEnrollment true

/-- `reauthenticate`: the password, and with TOTP enabled also a value of the second factor. -/
def reauthenticate (store : AuthStore)
    (principal : SessionPrincipal) (password : Text) (mfaValue : Option Text) (now : Nat) :
    Except AuthError (SessionPrincipal × AuthStore) :=
  let elevate (checked : AuthStore) : Except AuthError (SessionPrincipal × AuthStore) :=
    match AuthRepository.elevateSession checked principal.sessionId now
      (now + reauthenticationTtl) with
    | (none, _) => .error .invalidSession
    | (some elevated, stored) => .ok (elevated, stored)
  match checkPassword primitives
    (AuthRepository.findUserByUsername primitives.lower store principal.username) password with
  | .error error => .error error
  | .ok _ =>
      if settings.totpEnabled = false then elevate store
      else
        match AuthRepository.getMfaFactor store principal.userId, mfaValue with
        | some factor, some value =>
            if factor.confirmedAt = none then .error .invalidMfaCode
            else
              match verifyMfaValue primitives store factor value true now with
              | .error error => .error error
              | .ok ((verified, _), checked) =>
                  if verified = false then .error .invalidMfaCode else elevate checked
        | _, _ => .error .invalidMfaCode

/-- `require_recent_reauthentication`. -/
def recentlyReauthenticated (principal : SessionPrincipal) (now : Nat) : Bool :=
  principal.reauthenticatedAt.isSome && decide (∃ until_ ∈ principal.elevatedUntil, now < until_)

/-- `regenerate_recovery_codes`: the codes are hashed before the factor is looked at. -/
def regenerateRecoveryCodes (store : AuthStore)
    (actor : SessionPrincipal) (fresh : Fresh) (now : Nat) :
    Except AuthError (List String × AuthStore) :=
  if settings.totpEnabled = false then .error .totpDisabled
  else if recentlyReauthenticated actor now = false then .error .reauthenticationRequired
  else
    match fresh.recoveryCodes.mapM fun code =>
        (primitives.hashRecoveryCode (text code.2)).map fun codeHash => (code.1, codeHash) with
    | none => .error .undeclared
    | some rows =>
        if AuthRepository.factorEnabled store actor.userId = false then .error .invalidMfaCode
        else
          match AuthRepository.replaceRecoveryCodes store actor.userId rows now with
          | none => .error .undeclared
          | some stored => .ok (fresh.recoveryCodes.map Prod.snd, stored)

/-! ## Passwords and activation -/

/-- `_validate_password`. -/
def validatePassword (password : Text) : Except AuthError Unit :=
  if password.length < 12 ∨ 200 < password.length then
    .error (.invalidArgument "password must contain between 12 and 200 characters")
  else .ok ()

/-- `_validate_username`. -/
def validateUsername (username : String) : Except AuthError Unit :=
  if username.isEmpty = true ∨ 64 < username.length then
    .error (.invalidArgument "username must contain between 1 and 64 characters")
  else .ok ()

/-- `change_password`: the password and, where a factor is confirmed, a value of it; the new
password is hashed last. -/
def changePassword (store : AuthStore)
    (actor : SessionPrincipal) (currentPassword newPassword : Text) (mfaValue : Option Text)
    (fresh : Fresh) (now : Nat) : Except AuthError AuthStore :=
  let change (checked : AuthStore) : Except AuthError AuthStore :=
    (hashPassword primitives fresh.salt newPassword).map fun passwordHash =>
      AuthRepository.deleteUserSessions
        (AuthRepository.updatePasswordHash checked actor.userId passwordHash now) actor.userId
  match validatePassword newPassword with
  | .error error => .error error
  | .ok _ =>
      match checkPassword primitives
        (AuthRepository.findUserByUsername primitives.lower store actor.username)
        currentPassword with
      | .error error => .error error
      | .ok (user, _) =>
          if user.userId ≠ actor.userId then .error .invalidCredentials
          else
            match AuthRepository.getMfaFactor store actor.userId with
            | none => change store
            | some factor =>
                if settings.totpEnabled = false ∨ factor.confirmedAt = none then change store
                else
                  match mfaValue with
                  | none => .error .invalidMfaCode
                  | some value =>
                      match verifyMfaValue primitives store factor value true now with
                      | .error error => .error error
                      | .ok ((verified, _), checked) =>
                          if verified = false then .error .invalidMfaCode else change checked

/-- `activate`: a token is consumed and its user set to active, with a first password. -/
def activate (primitives : Primitives) (settings : AuthSettings) (store : AuthStore)
    (activationCode : String) (password : Text) (fresh : Fresh) (now : Nat) :
    Except AuthError (AuthResult × AuthStore) :=
  match (validatePassword password).bind fun _ => hashPassword primitives fresh.salt password with
  | .error error => .error error
  | .ok passwordHash =>
      match AuthRepository.consumeActivationToken store (primitives.hashToken activationCode)
        now with
      | none => .error .activationExpired
      | some (granted, consumed) =>
          match AuthRepository.activateUser consumed granted.userId passwordHash
            granted.role.mfaRequired now with
          | none => .error .undeclared
          | some (user, activated) =>
              if granted.role.mfaRequired && settings.totpEnabled then
                (issueChallenge primitives settings activated user fresh now .mfaEnrollment
                  true).map fun issued => (.challenge issued.1, issued.2)
              else
                (issue primitives settings activated user fresh now false none
                  (!settings.totpEnabled)).map fun issued => (.session issued.1, issued.2)

/-! ## Managing users -/

/-- `require_permission` and `require_recent_reauthentication`. -/
def requireManager (actor : SessionPrincipal) (now : Nat) : Except AuthError Unit :=
  if .userManage ∉ actor.permissions then .error .permissionDenied
  else if recentlyReauthenticated actor now = false then .error .reauthenticationRequired
  else .ok ()

/-- The identity that `bootstrap` and `create_user` add. -/
def newUser (userId : Uuid) (username : String) (status : UserStatus) (role : UserRole)
    (mfaEnrollmentRequired : Bool) (now : Nat) : User where
  userId := userId
  username := username
  status := status
  role := role
  mfaEnrollmentRequired := mfaEnrollmentRequired
  version := 1
  createdAt := now
  updatedAt := now

/-- `bootstrap`: the first user, an active owner. -/
def bootstrap (store : AuthStore) (userId : Uuid)
    (username : String) (password : Text) (fresh : Fresh) (now : Nat) :
    Except AuthError (User × AuthStore) :=
  let normalized := primitives.canonicalUsername username
  match validateUsername normalized,
    (validatePassword password).bind fun _ => hashPassword primitives fresh.salt password with
  | .error error, _ => .error error
  | _, .error error => .error error
  | .ok _, .ok passwordHash =>
      if AuthRepository.countUsers store ≠ 0 then .error .adminAlreadyExists
      else
        let user :=
          { newUser userId normalized .active .owner true now with
            passwordHash := some passwordHash
            passwordUpdatedAt := some now
            activatedAt := some now }
        match AuthRepository.addUser primitives.lower store user with
        | none => .error .adminAlreadyExists
        | some stored => .ok (user, stored)

/-- A live activation token for a user. -/
def grantActivation (store : AuthStore) (actor : SessionPrincipal)
    (userId activationTokenId : Uuid) (activationCode : String) (now : Nat) :
    Except AuthError AuthStore :=
  match AuthRepository.addActivationToken store
    { activationTokenId := activationTokenId
      userId := userId
      tokenHash := primitives.hashToken activationCode
      createdBy := actor.userId
      expiresAt := now + activationTtl
      createdAt := now } with
  | none => .error .undeclared
  | some stored => .ok stored

/-- `create_user`: a pending user, with an activation token. -/
def createUser (store : AuthStore) (actor : SessionPrincipal)
    (username : String) (role : UserRole) (userId activationTokenId : Uuid)
    (activationCode : String) (now : Nat) : Except AuthError AuthStore :=
  match requireManager actor now with
  | .error error => .error error
  | .ok _ =>
      let normalized := primitives.canonicalUsername username
      match validateUsername normalized with
      | .error error => .error error
      | .ok _ =>
          match AuthRepository.addUser primitives.lower store
            (newUser userId normalized .pendingActivation role role.mfaRequired now) with
          | none => .error .userConflict
          | some added =>
              grantActivation primitives added actor userId activationTokenId activationCode now

/-- `reissue_activation`: the live tokens of a pending user are replaced by a new one. -/
def reissueActivation (store : AuthStore) (actor : SessionPrincipal)
    (userId activationTokenId : Uuid) (activationCode : String) (now : Nat) :
    Except AuthError AuthStore :=
  match requireManager actor now with
  | .error error => .error error
  | .ok _ =>
      match AuthRepository.getUser store userId with
      | none => .error .activationExpired
      | some user =>
          if user.status ≠ .pendingActivation then .error .activationExpired
          else
            grantActivation primitives (AuthRepository.invalidateActivationTokens store userId now)
              actor userId activationTokenId activationCode now

/-- `update_user`: role and status under optimistic locking; the sessions of the user end. -/
def updateUser (store : AuthStore) (actor : SessionPrincipal) (userId : Uuid) (role : UserRole)
    (status : UserStatus) (expectedVersion now : Nat) : Except AuthError (User × AuthStore) :=
  match requireManager actor now with
  | .error error => .error error
  | .ok _ =>
      match AuthRepository.getUser store userId with
      | none => .error .invalidCredentials
      | some before =>
          if before.status = .pendingActivation ∧ status = .active then .error .userConflict
          else if before.status ≠ .pendingActivation ∧ status = .pendingActivation then
            .error .userConflict
          else if status = .active ∧ before.activatedAt = none then .error .userConflict
          else
            match AuthRepository.updateUser store userId role status expectedVersion now with
            | none => .error .userVersionConflict
            | some (updated, stored) =>
                -- the deferred trigger `enforce_active_owner`, at the commit
                if AuthRepository.countActiveOwners stored = 0 then .error .lastOwnerRequired
                else .ok (updated, AuthRepository.deleteUserSessions stored userId)

/-- `reset_user_mfa`: what an administrator does for another user. -/
def resetUserMfa (store : AuthStore) (actor : SessionPrincipal) (userId : Uuid) (now : Nat) :
    Except AuthError AuthStore :=
  match requireManager actor now with
  | .error error => .error error
  | .ok _ =>
      if actor.userId = userId then .error .permissionDenied
      else
        match AuthRepository.getUser store userId with
        | none => .error .invalidCredentials
        | some _ => .ok (AuthRepository.resetMfa store userId now)

/-- The user that a break-glass command is about: the sole active owner. -/
def soleOwner (store : AuthStore) (username : String) : Option User :=
  (AuthRepository.findUserByUsername primitives.lower store username).filter fun user =>
    user.role = .owner ∧ user.status = .active ∧ AuthRepository.countActiveOwners store = 1

/-- The error of a break-glass command that is not about the sole active owner. -/
def breakGlassRefused : AuthError :=
  .invalidArgument "break-glass is allowed only for the sole active OWNER; use another OWNER"

/-- `break_glass_reset_mfa`, which asks for a phrase that names the user. -/
def breakGlassResetMfa (store : AuthStore)
    (username confirmation : String) (now : Nat) : Except AuthError AuthStore :=
  let expected := "RESET MFA FOR " ++ primitives.canonicalUsername username
  if confirmation ≠ expected then
    .error (.invalidArgument ("confirmation must exactly match: " ++ expected))
  else
    match soleOwner primitives store (primitives.canonicalUsername username) with
    | none => .error breakGlassRefused
    | some user => .ok (AuthRepository.resetMfa store user.userId now)

/-- `break_glass_reset_password`, with a phrase of its own. -/
def breakGlassResetPassword (store : AuthStore)
    (username confirmation : String) (newPassword : Text) (fresh : Fresh) (now : Nat) :
    Except AuthError AuthStore :=
  let normalized := primitives.canonicalUsername username
  let expected := "RESET PASSWORD FOR " ++ normalized
  match validateUsername normalized with
  | .error error => .error error
  | .ok _ =>
      if confirmation ≠ expected then
        .error (.invalidArgument ("confirmation must exactly match: " ++ expected))
      else
        match (validatePassword newPassword).bind fun _ =>
          hashPassword primitives fresh.salt newPassword with
        | .error error => .error error
        | .ok passwordHash =>
            match soleOwner primitives store normalized with
            | none => .error breakGlassRefused
            | some user =>
                .ok (AuthRepository.deleteUserSessions
                  (AuthRepository.updatePasswordHash store user.userId passwordHash now)
                  user.userId)

/-! ## Key rotation -/

/-- The MFA branch of `process_rotation_batch`: each factor of the batch is opened
and sealed again, with a nonce of its own. -/
def rotateFactors (primitives : Primitives) (store : AuthStore) (now : Nat) :
    List (Uuid × Nat) → Except AuthError AuthStore
  | [] => .ok store
  | (userId, nonce) :: batch =>
      match AuthRepository.getMfaFactor store userId with
      | none => rotateFactors primitives store now batch
      | some factor =>
          match primitives.decryptTotp userId factor.encryptedTotpSecret
            factor.encryptionKeyVersion with
          | none => .error .undeclared
          | some secret =>
              let envelope := primitives.encryptTotp nonce userId secret
              rotateFactors primitives
                (AuthRepository.rotateFactor store userId envelope.1 envelope.2 now) now batch

/-! ## Sessions -/

/-- `resolve`: the principal of a session that has done all that the policy asks for. -/
def resolve (primitives : Primitives) (settings : AuthSettings) (store : AuthStore)
    (sessionToken : String) (now : Nat) : Except AuthError SessionPrincipal :=
  match AuthRepository.resolveSession store (primitives.hashToken sessionToken) now with
  | none => .error .invalidSession
  | some principal =>
      if settings.totpEnabled = true ∧ (principal.mfaEnrollmentRequired = true ∨
          (principal.role.mfaRequired = true ∧ principal.mfaEnabled = false) ∨
          (principal.mfaEnabled = true ∧ principal.mfaVerifiedAt = none)) then
        .error .invalidSession
      else .ok principal

/-- `logout`: the session is deleted. -/
def logout (store : AuthStore) (principal : SessionPrincipal) : AuthStore :=
  AuthRepository.deleteSession store principal.sessionId

end AuthService

end OpsComposer.Services
