import OpsComposer.Domain.Auth
import OpsComposer.Foundations.Table

/-!
# The authentication repository

`PostgresAuthRepository` of `auth/repository.py` over an `AuthStore`, a committed
state of the tables `users`, `user_mfa_factors`, `user_recovery_codes`,
`auth_challenges`, `sessions`, `user_activation_tokens` and `auth_rate_limits`.
One function is one statement, or one method of the repository.

Token hashes, and the live activation token of a user, are unique: an insert that
breaks this is refused.
-/

set_option autoImplicit false

namespace OpsComposer.Repositories

open Domain Foundations

/-- The tables of the accounts. -/
structure AuthStore where
  users : Table User.userId
  factors : Table MfaFactor.userId
  recoveryCodes : Table RecoveryCode.recoveryCodeId
  challenges : Table AuthChallenge.challengeId
  sessions : Table AuthSession.sessionId
  activationTokens : Table ActivationToken.activationTokenId
  rateLimits : Table RateLimit.key

/-- The tables before the first bootstrap. -/
def AuthStore.empty : AuthStore where
  users := .empty
  factors := .empty
  recoveryCodes := .empty
  challenges := .empty
  sessions := .empty
  activationTokens := .empty
  rateLimits := .empty

namespace AuthRepository

/-! ## Users -/

/-- `count_users`. -/
def countUsers (store : AuthStore) : Nat := store.users.rows.length

/-- `get_user`. -/
def getUser (store : AuthStore) (userId : Uuid) : Option User := store.users.lookup userId

/-- `WHERE lower(username) = %(username)s`. -/
def findUserByUsername (lower : String → String) (store : AuthStore) (username : String) :
    Option User :=
  store.users.rows.find? fun user => lower user.username = username

/-- `INSERT INTO users`, refused by the key and by the index on `lower(username)`. -/
def addUser (lower : String → String) (store : AuthStore) (user : User) : Option AuthStore :=
  if ∃ other ∈ store.users.rows, lower other.username = lower user.username then none
  else (store.users.insert? user).map fun users => { store with users := users }

/-- `EXISTS (SELECT 1 FROM user_mfa_factors … AND confirmed_at IS NOT NULL)`. -/
def factorEnabled (store : AuthStore) (userId : Uuid) : Bool :=
  decide (∃ factor ∈ store.factors.lookup userId, factor.confirmedAt.isSome)

/-- The `SET` clause of `update_user`. -/
def updatedUser (store : AuthStore) (role : UserRole) (status : UserStatus) (now : Nat)
    (user : User) : User :=
  { user with
    role := role
    status := status
    mfaEnrollmentRequired :=
      if role.mfaRequired = true ∧ factorEnabled store user.userId = false then true
      else user.mfaEnrollmentRequired
    version := user.version + 1
    updatedAt := now }

@[simp] theorem updatedUser_userId (store : AuthStore) (role : UserRole) (status : UserStatus)
    (now : Nat) (user : User) : (updatedUser store role status now user).userId = user.userId := rfl

/-- Nothing is updated when the version is not the expected one. -/
def updateUser (store : AuthStore) (userId : Uuid) (role : UserRole) (status : UserStatus)
    (expectedVersion now : Nat) : Option (User × AuthStore) :=
  match store.users.lookup userId with
  | none => none
  | some user =>
      if user.version = expectedVersion then
        some (updatedUser store role status now user, { store with
          users := store.users.update (fun u => u.userId = userId)
            (updatedUser store role status now) (updatedUser_userId store role status now) })
      else none

/-- `update_password_hash`. -/
def updatePasswordHash (store : AuthStore) (userId : Uuid) (passwordHash : String) (now : Nat) :
    AuthStore :=
  { store with
    users := store.users.update (fun user => user.userId = userId)
      (fun user =>
        { user with
          passwordHash := some passwordHash
          passwordUpdatedAt := some now
          updatedAt := now
          version := user.version + 1 }) fun _ => rfl }

/-- The `SET` clause of `activate_user`. -/
def activatedUser (passwordHash : String) (mfaEnrollmentRequired : Bool) (now : Nat) (user : User) :
    User :=
  { user with
    passwordHash := some passwordHash
    status := .active
    mfaEnrollmentRequired := mfaEnrollmentRequired
    passwordUpdatedAt := some now
    activatedAt := some now
    updatedAt := now
    version := user.version + 1 }

@[simp] theorem activatedUser_userId (passwordHash : String) (mfaEnrollmentRequired : Bool)
    (now : Nat) (user : User) :
    (activatedUser passwordHash mfaEnrollmentRequired now user).userId = user.userId := rfl

/-- `RuntimeError` when no pending user has the id. -/
def activateUser (store : AuthStore) (userId : Uuid) (passwordHash : String)
    (mfaEnrollmentRequired : Bool) (now : Nat) : Option (User × AuthStore) :=
  match store.users.lookup userId with
  | none => none
  | some user =>
      if user.status = .pendingActivation then
        some (activatedUser passwordHash mfaEnrollmentRequired now user, { store with
          users := store.users.update (fun u => u.userId = userId)
            (activatedUser passwordHash mfaEnrollmentRequired now)
            (activatedUser_userId passwordHash mfaEnrollmentRequired now) })
      else none

/-- The active owners. -/
def countActiveOwners (store : AuthStore) : Nat :=
  (store.users.select fun user => user.role = .owner ∧ user.status = .active).length

/-! ## Activation tokens -/

/-- `invalidate_activation_tokens`. -/
def invalidateActivationTokens (store : AuthStore) (userId : Uuid) (now : Nat) : AuthStore :=
  { store with
    activationTokens := store.activationTokens.update
      (fun token => token.userId = userId ∧ token.consumedAt = none)
      (fun token => { token with consumedAt := some now }) fun _ => rfl }

/-- `add_activation_token`: a hash is used once, and a user has one open token. -/
def addActivationToken (store : AuthStore) (token : ActivationToken) : Option AuthStore :=
  if ∃ other ∈ store.activationTokens.rows, other.tokenHash = token.tokenHash ∨
      (other.userId = token.userId ∧ other.consumedAt = none) then none
  else
    (store.activationTokens.insert? token).map fun activationTokens =>
      { store with activationTokens := activationTokens }

/-- The user whose live token has the hash, with the token marked as consumed. -/
def consumeActivationToken (store : AuthStore) (tokenHash : String) (now : Nat) :
    Option (User × AuthStore) :=
  match store.activationTokens.rows.find? fun token =>
      token.tokenHash = tokenHash ∧ token.consumedAt = none ∧ now < token.expiresAt with
  | none => none
  | some token =>
      match store.users.lookup token.userId with
      | none => none
      | some user =>
          if user.status = .pendingActivation then
            some (user, { store with
              activationTokens := store.activationTokens.update
                (fun t => t.activationTokenId = token.activationTokenId)
                (fun t => { t with consumedAt := some now }) fun _ => rfl })
          else none

/-! ## Sessions -/

/-- `add_session`: a hash is used once. -/
def addSession (store : AuthStore) (session : AuthSession) : Option AuthStore :=
  if ∃ other ∈ store.sessions.rows, other.tokenHash = session.tokenHash then none
  else (store.sessions.insert? session).map fun sessions => { store with sessions := sessions }

/-- The columns that a principal is made of. -/
def principal (store : AuthStore) (session : AuthSession) (user : User) : SessionPrincipal where
  sessionId := session.sessionId
  userId := session.userId
  username := user.username
  role := user.role
  permissions := permissionsForRole user.role
  mfaEnabled := factorEnabled store user.userId
  mfaEnrollmentRequired := user.mfaEnrollmentRequired
  mfaVerifiedAt := session.mfaVerifiedAt
  reauthenticatedAt := session.reauthenticatedAt
  elevatedUntil := session.elevatedUntil
  csrfHash := session.csrfHash
  expiresAt := session.expiresAt

/-- `resolve_session`: a session that has not expired, of a user who is active. -/
def resolveSession (store : AuthStore) (tokenHash : String) (now : Nat) :
    Option SessionPrincipal :=
  match store.sessions.rows.find? fun session =>
      session.tokenHash = tokenHash ∧ now < session.expiresAt with
  | none => none
  | some session =>
      match store.users.lookup session.userId with
      | none => none
      | some user => if user.status = .active then some (principal store session user) else none

/-- `delete_session`. -/
def deleteSession (store : AuthStore) (sessionId : Uuid) : AuthStore :=
  { store with sessions := store.sessions.delete fun session => session.sessionId = sessionId }

/-- `delete_user_sessions`. -/
def deleteUserSessions (store : AuthStore) (userId : Uuid) : AuthStore :=
  { store with sessions := store.sessions.delete fun session => session.userId = userId }

/-- The session is elevated; the answer is its principal, if the user is active. -/
def elevateSession (store : AuthStore) (sessionId : Uuid) (reauthenticatedAt elevatedUntil : Nat) :
    Option SessionPrincipal × AuthStore :=
  let elevated := { store with
    sessions := store.sessions.update (fun session => session.sessionId = sessionId)
      (fun session =>
        { session with
          reauthenticatedAt := some reauthenticatedAt
          elevatedUntil := some elevatedUntil }) fun _ => rfl }
  (match elevated.sessions.lookup sessionId with
    | none => none
    | some session =>
        match elevated.users.lookup session.userId with
        | none => none
        | some user =>
            if user.status = .active then some (principal elevated session user) else none,
    elevated)

/-! ## Challenges -/

/-- `add_challenge`: a hash is used once. -/
def addChallenge (store : AuthStore) (challenge : AuthChallenge) : Option AuthStore :=
  if ∃ other ∈ store.challenges.rows, other.tokenHash = challenge.tokenHash then none
  else
    (store.challenges.insert? challenge).map fun challenges => { store with challenges := challenges }

/-- `resolve_challenge`: a challenge that is open and has not expired. -/
def resolveChallenge (store : AuthStore) (tokenHash : String) (now : Nat) : Option AuthChallenge :=
  store.challenges.rows.find? fun challenge =>
    challenge.tokenHash = tokenHash ∧ challenge.consumedAt = none ∧ now < challenge.expiresAt

/-- `mark_challenge_consumed`, and whether the challenge was still open. -/
def markChallengeConsumed (store : AuthStore) (challengeId : Uuid) (now : Nat) : Bool × AuthStore :=
  (decide (∃ challenge ∈ store.challenges.lookup challengeId, challenge.consumedAt = none),
    { store with
      challenges := store.challenges.update
        (fun challenge => challenge.challengeId = challengeId ∧ challenge.consumedAt = none)
        (fun challenge => { challenge with consumedAt := some now }) fun _ => rfl })

/-! ## Second factors -/

/-- `get_mfa_factor`. -/
def getMfaFactor (store : AuthStore) (userId : Uuid) : Option MfaFactor :=
  store.factors.lookup userId

/-- The upsert: a row that is there gets the new secret and loses its
confirmation. -/
def putMfaFactor (store : AuthStore) (factor : MfaFactor) : AuthStore :=
  { store with
    factors := store.factors.put
      (match store.factors.lookup factor.userId with
        | none => factor
        | some old =>
            { userId := factor.userId
              encryptedTotpSecret := factor.encryptedTotpSecret
              encryptionKeyVersion := factor.encryptionKeyVersion
              lastAcceptedStep := none
              confirmedAt := none
              createdAt := old.createdAt
              updatedAt := factor.updatedAt }) }

/-- The factor is confirmed and the user need not enroll any more. -/
def confirmMfaFactor (store : AuthStore) (userId : Uuid) (now : Nat) : AuthStore :=
  { store with
    factors := store.factors.update (fun factor => factor.userId = userId)
      (fun factor => { factor with confirmedAt := some now, updatedAt := now }) fun _ => rfl
    users := store.users.update (fun user => user.userId = userId)
      (fun user =>
        { user with
          mfaEnrollmentRequired := false
          updatedAt := now
          version := user.version + 1 }) fun _ => rfl }

/-- The `WHERE` clause of `accept_totp_step`. -/
abbrev AcceptsStep (userId : Uuid) (step : Nat) (factor : MfaFactor) : Prop :=
  factor.userId = userId ∧ factor.confirmedAt.isSome ∧
    ∀ last ∈ factor.lastAcceptedStep, last < step

/-- `accept_totp_step`, and whether the step was accepted. -/
def acceptTotpStep (store : AuthStore) (userId : Uuid) (step now : Nat) : Bool × AuthStore :=
  (decide (∃ factor ∈ store.factors.lookup userId, AcceptsStep userId step factor),
    { store with
      factors := store.factors.update (AcceptsStep userId step)
        (fun factor => { factor with lastAcceptedStep := some step, updatedAt := now })
        fun _ => rfl })

/-- `replace_recovery_codes`. -/
def replaceRecoveryCodes (store : AuthStore) (userId : Uuid) (rows : List (Uuid × String))
    (now : Nat) : Option AuthStore :=
  ((store.recoveryCodes.delete fun code => code.userId = userId).insertAll?
    (rows.map fun row =>
      { recoveryCodeId := row.1, userId := userId, codeHash := row.2, createdAt := now })).map
    fun recoveryCodes => { store with recoveryCodes := recoveryCodes }

/-- The `WHERE` clause of `consume_recovery_code`. -/
abbrev Unused (userId : Uuid) (codeHash : String) (code : RecoveryCode) : Prop :=
  code.userId = userId ∧ code.codeHash = codeHash ∧ code.usedAt = none

/-- `consume_recovery_code`, and whether there was an unused one. -/
def consumeRecoveryCode (store : AuthStore) (userId : Uuid) (codeHash : String) (now : Nat) :
    Bool × AuthStore :=
  (decide (∃ code ∈ store.recoveryCodes.rows, Unused userId codeHash code),
    { store with
      recoveryCodes := store.recoveryCodes.update (Unused userId codeHash)
        (fun code => { code with usedAt := some now }) fun _ => rfl })

/-- Codes, factor and sessions are deleted, and the user has to enroll again. -/
def resetMfa (store : AuthStore) (userId : Uuid) (now : Nat) : AuthStore :=
  { store with
    recoveryCodes := store.recoveryCodes.delete fun code => code.userId = userId
    factors := store.factors.delete fun factor => factor.userId = userId
    sessions := store.sessions.delete fun session => session.userId = userId
    users := store.users.update (fun user => user.userId = userId)
      (fun user =>
        { user with
          mfaEnrollmentRequired := true
          updatedAt := now
          version := user.version + 1 }) fun _ => rfl }

/-- `update_rotation_batch` for the factor of one user. -/
def rotateFactor (store : AuthStore) (userId : Uuid) (envelope : List UInt8)
    (keyVersion now : Nat) :
    AuthStore :=
  { store with
    factors := store.factors.update (fun factor => factor.userId = userId)
      (fun factor =>
        { factor with
          encryptedTotpSecret := envelope
          encryptionKeyVersion := keyVersion
          updatedAt := now }) fun _ => rfl }

/-! ## Rate limits and expiry -/

/-- The upsert of the counter of a window, with the count after it. -/
def consumeRateLimit (store : AuthStore) (key : RateLimitKey) (expiresAt : Nat) : Nat × AuthStore :=
  let count := ((store.rateLimits.lookup key).map RateLimit.attemptCount).getD 0 + 1
  (count, { store with
    rateLimits := store.rateLimits.put
      { key := key, attemptCount := count, expiresAt := expiresAt } })

/-- `clear_rate_limit`. -/
def clearRateLimit (store : AuthStore) (key : RateLimitKey) : AuthStore :=
  { store with rateLimits := store.rateLimits.delete fun limit => limit.key = key }

/-- `purge_expired`. -/
def purgeExpired (store : AuthStore) (now : Nat) : AuthStore :=
  { store with
    sessions := store.sessions.delete fun session => session.expiresAt ≤ now
    rateLimits := store.rateLimits.delete fun limit => limit.expiresAt ≤ now
    challenges := store.challenges.delete fun challenge => challenge.expiresAt ≤ now
    activationTokens := store.activationTokens.delete fun token =>
      token.expiresAt ≤ now ∨ token.consumedAt.isSome }

end AuthRepository

end OpsComposer.Repositories
