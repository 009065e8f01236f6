import OpsComposer.Repositories.AuthRows
import OpsComposer.Services.Auth

/-!
# The authentication service, statement by statement

The units of work of `AuthService` as transaction programs: in which order an
operation reads the clock, which statements it executes, and what it concludes from
the rows they return.  `Services.Auth` has the same operations as functions of one
committed state; here other transactions come between the statements.

A statement that raises ends its transaction, so that programs do not see it.
-/

set_option autoImplicit false

namespace OpsComposer.Services

open Domain Foundations Repositories

/-- A unit of work of the authentication service. -/
abbrev AuthProgram := Program AuthStatement AuthRow AuthError

namespace AuthProgram

open Program

/-! ## Queries -/

/-- The user in the first row. -/
def user? : List AuthRow → Option User
  | .user row :: _ => some row
  | _ => none

/-- The factor in the first row. -/
def factor? : List AuthRow → Option MfaFactor
  | .factor row :: _ => some row
  | _ => none

/-- The challenge in the first row. -/
def challenge? : List AuthRow → Option AuthChallenge
  | .challenge row :: _ => some row
  | _ => none

/-- `get_user`. -/
def getUser (userId : Uuid) : AuthProgram (Option User) := do
  let rows ← execute (.getUser userId)
  pure (user? rows)

/-- `find_user_by_username`. -/
def findUserByUsername (username : String) : AuthProgram (Option User) := do
  let rows ← execute (.findUserByUsername username)
  pure (user? rows)

/-- `get_mfa_factor`. -/
def getMfaFactor (userId : Uuid) : AuthProgram (Option MfaFactor) := do
  let rows ← execute (.getMfaFactor userId)
  pure (factor? rows)

/-- The error of a step that executes no statement ends the unit of work. -/
def ofExcept {α : Type} : Except AuthError α → AuthProgram α
  | .ok answer => pure answer
  | .error error => .fail error

section Binds

variable {α : Type}

@[simp] theorem getUser_bind (userId : Uuid) (f : Option User → AuthProgram α) :
    getUser userId >>= f = .run (.getUser userId) fun rows => f (user? rows) := rfl

@[simp] theorem findUserByUsername_bind (username : String) (f : Option User → AuthProgram α) :
    findUserByUsername username >>= f =
      .run (.findUserByUsername username) fun rows => f (user? rows) := rfl

@[simp] theorem getMfaFactor_bind (userId : Uuid) (f : Option MfaFactor → AuthProgram α) :
    getMfaFactor userId >>= f = .run (.getMfaFactor userId) fun rows => f (factor? rows) := rfl

end Binds

section Service

variable (primitives : Primitives) (settings : AuthSettings) (fresh : Fresh)

/-! ## Issuing -/

/-- `_issue`. -/
def issue (user : User) (mfaEnabled : Bool) (mfaVerifiedAt : Option Nat) (elevated : Bool) :
    AuthProgram IssuedSession := do
  let now ← now
  let session := AuthService.sessionRow primitives settings user fresh now mfaVerifiedAt elevated
  let _ ← execute (.addSession session)
  pure
    { principal :=
        { sessionId := session.sessionId
          userId := user.userId
          username := user.username
          role := user.role
          permissions := permissionsForRole user.role
          mfaEnabled := mfaEnabled
          mfaEnrollmentRequired := user.mfaEnrollmentRequired
          mfaVerifiedAt := mfaVerifiedAt
          reauthenticatedAt := session.reauthenticatedAt
          elevatedUntil := session.elevatedUntil
          csrfHash := session.csrfHash
          expiresAt := session.expiresAt }
      sessionToken := fresh.sessionToken
      csrfToken := fresh.csrfToken }

/-- `_issue_challenge`. -/
def issueChallenge (user : User) (purpose : ChallengePurpose) (beginEnrollment : Bool) :
    AuthProgram IssuedChallenge :=
  if settings.totpEnabled = false then .fail .totpDisabled
  else do
    let now ← now
    let challenge := AuthService.challengeRow primitives user fresh now purpose
    if beginEnrollment then
      let _ ← execute (.putMfaFactor (AuthService.pendingFactor primitives user fresh now))
    let _ ← execute (.addChallenge challenge)
    pure
      { challengeId := challenge.challengeId
        userId := user.userId
        username := user.username
        purpose := purpose
        expiresAt := challenge.expiresAt
        challengeToken := fresh.challengeToken
        enrollmentSecret := if beginEnrollment then some fresh.totpSecret else none
        otpauthUri :=
          if beginEnrollment then some (AuthService.otpauthUri primitives user fresh) else none }

/-! ## Signing in -/

/-- What `login` comes to once the password is right. -/
def signIn (user : User) (factor : Option MfaFactor) : AuthProgram AuthResult :=
  let factorEnabled := factor.any fun factor => factor.confirmedAt.isSome
  let enrollmentRequired :=
    user.mfaEnrollmentRequired || (user.role.mfaRequired && !factorEnabled)
  if settings.totpEnabled = false then do
    let issued ← issue primitives settings fresh user factorEnabled none true
    pure (.session issued)
  else if enrollmentRequired then do
    let issued ← issueChallenge primitives settings fresh user .mfaEnrollment true
    pure (.challenge issued)
  else if factorEnabled then do
    let issued ← issueChallenge primitives settings fresh user .loginMfa false
    pure (.challenge issued)
  else do
    let issued ← issue primitives settings fresh user false none false
    pure (.session issued)

/-- The last unit of work of `login`. -/
def login (username : String) (password : Text) (bucket : RateLimitKey) :
    AuthProgram AuthResult := do
  let user? ← findUserByUsername username
  match AuthService.checkPassword primitives user? password with
  | .error error => .fail error
  | .ok (user, verification) =>
      if user.status ≠ .active then .fail .invalidCredentials
      else do
        if verification.needsRehash then
          let passwordHash ← ofExcept (AuthService.hashPassword primitives fresh.salt password)
          let now ← now
          let _ ← execute (.updatePasswordHash user.userId passwordHash now)
        let _ ← execute (.clearRateLimit bucket)
        let factor ← getMfaFactor user.userId
        signIn primitives settings fresh user factor

/-! ## Second factors -/

/-- `_verify_mfa_value`. -/
def verifyMfaValue (factor : MfaFactor) (value : Text) (allowRecovery : Bool) :
    AuthProgram (Bool × Bool) := do
  let now ← now
  match primitives.decryptTotp factor.userId factor.encryptedTotpSecret
    factor.encryptionKeyVersion with
  | none => .fail .invalidMfaCode
  | some secret =>
      match matchTotpStep primitives secret value now factor.lastAcceptedStep with
      | .error error => .fail error
      | .ok (some step) => do
          let rows ← execute (.acceptTotpStep factor.userId step now)
          pure (!rows.isEmpty, false)
      | .ok none =>
          if allowRecovery then
            match primitives.hashRecoveryCode value with
            | none => .fail .undeclared
            | some codeHash => do
                let rows ← execute (.consumeRecoveryCode factor.userId codeHash now)
                pure (!rows.isEmpty, !rows.isEmpty)
          else pure (false, false)

/-- The inserts of `replace_recovery_codes`. -/
def addRecoveryCodes (userId : Uuid) (now : Nat) : List (Uuid × String) → AuthProgram Unit
  | [] => pure ()
  | row :: rows => do
      let _ ← execute (.addRecoveryCode
        { recoveryCodeId := row.1, userId := userId, codeHash := row.2, createdAt := now })
      addRecoveryCodes userId now rows

/-- `replace_recovery_codes`. -/
def replaceRecoveryCodes (userId : Uuid) (rows : List (Uuid × String)) (now : Nat) :
    AuthProgram Unit := do
  let _ ← execute (.deleteRecoveryCodes userId)
  addRecoveryCodes userId now rows

/-- The ids and hashes of the fresh recovery codes; hashing may raise. -/
def recoveryCodeRows : Option (List (Uuid × String)) :=
  fresh.recoveryCodes.mapM fun code =>
    (primitives.hashRecoveryCode (text code.2)).map fun codeHash => (code.1, codeHash)

/-- The part of `complete_mfa` that ends an enrollment. -/
def confirmEnrollment (userId : Uuid) (factor : MfaFactor) (value : Text) (now : Nat) :
    AuthProgram Unit :=
  if factor.confirmedAt.isSome then .fail .invalidChallenge
  else
    match primitives.decryptTotp factor.userId factor.encryptedTotpSecret
      factor.encryptionKeyVersion with
    | none => .fail .invalidMfaCode
    | some secret =>
        match matchTotpStep primitives secret value now with
        | .error error => .fail error
        | .ok none => .fail .invalidMfaCode
        | .ok (some step) => do
            let _ ← execute (.confirmMfaFactor userId now)
            let _ ← execute (.endEnrollment userId now)
            let accepted ← execute (.acceptTotpStep userId step now)
            if accepted.isEmpty then .fail .invalidMfaCode
            else
              match recoveryCodeRows primitives fresh with
              | none => .fail .undeclared
              | some rows => replaceRecoveryCodes userId rows now

/-- The part of `complete_mfa` after the verification. -/
def completeChallenge (user : User) (challenge : AuthChallenge) (recoveryCodes : List String)
    (now : Nat) : AuthProgram AuthService.CompletedMfa := do
  let consumed ← execute (.markChallengeConsumed challenge.challengeId now)
  if consumed.isEmpty then .fail .invalidChallenge
  else do
    let _ ← execute (.deleteUserSessions user.userId)
    let issued ← issue primitives settings fresh user true (some now) true
    pure { issued := issued, recoveryCodes := recoveryCodes }

/-- `complete_mfa`. -/
def completeMfa (challengeToken : String) (value : Text)
    (expectedPurpose : Option ChallengePurpose) : AuthProgram AuthService.CompletedMfa :=
  if settings.totpEnabled = false then .fail .totpDisabled
  else do
    let now ← now
    let rows ← execute (.resolveChallenge (primitives.hashToken challengeToken) now)
    match challenge? rows with
    | none => .fail .invalidChallenge
    | some challenge =>
        if expectedPurpose ≠ none ∧ expectedPurpose ≠ some challenge.purpose then
          .fail .invalidChallenge
        else do
          let user? ← getUser challenge.userId
          let factor? ← getMfaFactor challenge.userId
          match user?, factor? with
          | some user, some factor =>
              match challenge.purpose with
              | .mfaEnrollment => do
                  confirmEnrollment primitives fresh user.userId factor value now
                  completeChallenge primitives settings fresh
                    { user with mfaEnrollmentRequired := false } challenge
                    (fresh.recoveryCodes.map Prod.snd) now
              | .loginMfa => do
                  let verified ← verifyMfaValue primitives factor value true
                  if verified.1 = false then .fail .invalidMfaCode
                  else completeChallenge primitives settings fresh user challenge [] now
          | _, _ => .fail .invalidChallenge

/-- `begin_mfa_enrollment`. -/
def beginMfaEnrollment (principal : SessionPrincipal) : AuthProgram IssuedChallenge :=
  if settings.totpEnabled = false then .fail .totpDisabled
  else do
    let user? ← getUser principal.userId
    match user? with
    | none => .fail .invalidSession
    | some user =>
        issueChallenge primitives settings fresh { user with mfaEnrollmentRequired := true }
          .mfaEnrollment true

/-- `elevate_session`, with the error of `reauthenticate` when it returns nothing. -/
def elevate (principal : SessionPrincipal) : AuthProgram SessionPrincipal := do
  let now ← now
  let _ ← execute (.elevateSession principal.sessionId now
    (now + AuthService.reauthenticationTtl))
  let rows ← execute (.sessionPrincipal principal.sessionId)
  match rows with
  | .session session :: .user user :: enabled =>
      pure
        { sessionId := session.sessionId
          userId := session.userId
          username := user.username
          role := user.role
          permissions := permissionsForRole user.role
          mfaEnabled := !enabled.isEmpty
          mfaEnrollmentRequired := user.mfaEnrollmentRequired
          mfaVerifiedAt := session.mfaVerifiedAt
          reauthenticatedAt := session.reauthenticatedAt
          elevatedUntil := session.elevatedUntil
          csrfHash := session.csrfHash
          expiresAt := session.expiresAt }
  | _ => .fail .invalidSession

/-- `reauthenticate`. -/
def reauthenticate (principal : SessionPrincipal) (password : Text)
    (mfaValue : Option Text) : AuthProgram SessionPrincipal := do
  let user? ← findUserByUsername principal.username
  match AuthService.checkPassword primitives user? password with
  | .error error => .fail error
  | .ok _ =>
      if settings.totpEnabled = false then elevate principal
      else do
        let factor? ← getMfaFactor principal.userId
        match factor?, mfaValue with
        | some factor, some value =>
            if factor.confirmedAt = none then .fail .invalidMfaCode
            else do
              let verified ← verifyMfaValue primitives factor value true
              if verified.1 = false then .fail .invalidMfaCode else elevate principal
        | _, _ => .fail .invalidMfaCode

/-- `require_recent_reauthentication`. -/
def requireRecentReauthentication (principal : SessionPrincipal) : AuthProgram Unit := do
  let now ← now
  if AuthService.recentlyReauthenticated principal now = false then
    .fail .reauthenticationRequired
  else pure ()

/-- `regenerate_recovery_codes`. -/
def regenerateRecoveryCodes (actor : SessionPrincipal) : AuthProgram (List String) :=
  if settings.totpEnabled = false then .fail .totpDisabled
  else do
    requireRecentReauthentication actor
    let now ← now
    match recoveryCodeRows primitives fresh with
    | none => .fail .undeclared
    | some rows => do
        let factor ← getMfaFactor actor.userId
        if factor.any (fun factor => factor.confirmedAt.isSome) = false then
          .fail .invalidMfaCode
        else do
          replaceRecoveryCodes actor.userId rows now
          pure (fresh.recoveryCodes.map Prod.snd)

/-! ## Passwords and activation -/

/-- The two statements that a password change ends with. -/
def setPassword (userId : Uuid) (passwordHash : String) (now : Nat) : AuthProgram Unit := do
  let _ ← execute (.updatePasswordHash userId passwordHash now)
  let _ ← execute (.deleteUserSessions userId)
  pure ()

/-- The end of `change_password`, which hashes the new password. -/
def storePassword (userId : Uuid) (newPassword : Text) (now : Nat) : AuthProgram Unit := do
  let passwordHash ← ofExcept (AuthService.hashPassword primitives fresh.salt newPassword)
  setPassword userId passwordHash now

/-- `change_password`. -/
def changePassword (actor : SessionPrincipal) (currentPassword newPassword : Text)
    (mfaValue : Option Text) : AuthProgram Unit := do
  ofExcept (AuthService.validatePassword newPassword)
  let now ← now
  let user? ← findUserByUsername actor.username
  match AuthService.checkPassword primitives user? currentPassword with
  | .error error => .fail error
  | .ok (user, _) =>
      if user.userId ≠ actor.userId then .fail .invalidCredentials
      else do
        let factor? ← getMfaFactor actor.userId
        match factor? with
        | none => storePassword primitives fresh actor.userId newPassword now
        | some factor =>
            if settings.totpEnabled = false ∨ factor.confirmedAt = none then
              storePassword primitives fresh actor.userId newPassword now
            else
              match mfaValue with
              | none => .fail .invalidMfaCode
              | some value => do
                  let verified ← verifyMfaValue primitives factor value true
                  if verified.1 = false then .fail .invalidMfaCode
                  else storePassword primitives fresh actor.userId newPassword now

/-- `activate`: the password is hashed before the clock is read. -/
def activate (activationCode : String) (password : Text) : AuthProgram AuthResult := do
  ofExcept (AuthService.validatePassword password)
  let passwordHash ← ofExcept (AuthService.hashPassword primitives fresh.salt password)
  let now ← now
  let granted ← execute (.consumeActivationToken (primitives.hashToken activationCode) now)
  match user? granted with
  | none => .fail .activationExpired
  | some grant => do
      let requiresMfa := grant.role.mfaRequired
      let activated ← execute (.activateUser grant.userId passwordHash requiresMfa now)
      match user? activated with
      | none => .fail .undeclared
      | some user =>
          if requiresMfa && settings.totpEnabled then do
            let issued ← issueChallenge primitives settings fresh user .mfaEnrollment true
            pure (.challenge issued)
          else do
            let issued ← issue primitives settings fresh user false none (!settings.totpEnabled)
            pure (.session issued)

/-! ## Managing users -/

/-- `require_permission`, then `require_recent_reauthentication`. -/
def requireManager (actor : SessionPrincipal) : AuthProgram Unit :=
  if .userManage ∉ actor.permissions then .fail .permissionDenied
  else requireRecentReauthentication actor

/-- `bootstrap`. -/
def bootstrap (userId : Uuid) (username : String) (password : Text) : AuthProgram User := do
  let normalized := primitives.canonicalUsername username
  ofExcept (AuthService.validateUsername normalized)
  ofExcept (AuthService.validatePassword password)
  let passwordHash ← ofExcept (AuthService.hashPassword primitives fresh.salt password)
  let now ← now
  let user : User :=
    { AuthService.newUser userId normalized .active .owner true now with
      passwordHash := some passwordHash
      passwordUpdatedAt := some now
      activatedAt := some now }
  let users ← execute .countUsers
  if users.length ≠ 0 then .fail .adminAlreadyExists
  else do
    let _ ← execute (.addUser user)
    pure user

/-- `add_activation_token`. -/
def grantActivation (actor : SessionPrincipal) (userId activationTokenId : Uuid)
    (activationCode : String) (now : Nat) : AuthProgram Unit := do
  let _ ← execute (.addActivationToken
    { activationTokenId := activationTokenId
      userId := userId
      tokenHash := primitives.hashToken activationCode
      createdBy := actor.userId
      expiresAt := now + AuthService.activationTtl
      createdAt := now })
  pure ()

/-- `create_user`. -/
def createUser (actor : SessionPrincipal) (username : String) (role : UserRole)
    (userId activationTokenId : Uuid) (activationCode : String) : AuthProgram Unit := do
  requireManager actor
  let normalized := primitives.canonicalUsername username
  ofExcept (AuthService.validateUsername normalized)
  let now ← now
  let _ ← execute (.addUser
    (AuthService.newUser userId normalized .pendingActivation role role.mfaRequired now))
  grantActivation primitives actor userId activationTokenId activationCode now

/-- `reissue_activation`. -/
def reissueActivation (actor : SessionPrincipal) (userId activationTokenId : Uuid)
    (activationCode : String) : AuthProgram Unit := do
  requireManager actor
  let now ← now
  let user? ← getUser userId
  match user? with
  | none => .fail .activationExpired
  | some user =>
      if user.status ≠ .pendingActivation then .fail .activationExpired
      else do
        let _ ← execute (.invalidateActivationTokens userId now)
        grantActivation primitives actor userId activationTokenId activationCode now

/-- `update_user`. -/
def updateUser (actor : SessionPrincipal) (userId : Uuid) (role : UserRole) (status : UserStatus)
    (expectedVersion : Nat) : AuthProgram User := do
  requireManager actor
  let now ← now
  let user? ← getUser userId
  match user? with
  | none => .fail .invalidCredentials
  | some before =>
      if before.status = .pendingActivation ∧ status = .active then .fail .userConflict
      else if before.status ≠ .pendingActivation ∧ status = .pendingActivation then
        .fail .userConflict
      else if status = .active ∧ before.activatedAt = none then .fail .userConflict
      else do
        let updated ← execute (.updateUser userId role status expectedVersion now)
        match AuthProgram.user? updated with
        | none => .fail .userVersionConflict
        | some user => do
            let _ ← execute (.deleteUserSessions userId)
            pure user

/-- `reset_mfa`. -/
def resetMfa (userId : Uuid) (now : Nat) : AuthProgram Unit := do
  let _ ← execute (.deleteRecoveryCodes userId)
  let _ ← execute (.deleteMfaFactor userId)
  let _ ← execute (.deleteUserSessions userId)
  let _ ← execute (.requireEnrollment userId now)
  pure ()

/-- `reset_user_mfa`. -/
def resetUserMfa (actor : SessionPrincipal) (userId : Uuid) : AuthProgram Unit := do
  requireManager actor
  if actor.userId = userId then .fail .permissionDenied
  else do
    let now ← now
    let user? ← getUser userId
    match user? with
    | none => .fail .invalidCredentials
    | some _ => resetMfa userId now

/-- The sole active owner that a break-glass command is about. -/
def soleOwner (username : String) : AuthProgram User := do
  let user? ← findUserByUsername username
  match user? with
  | none => .fail AuthService.breakGlassRefused
  | some user =>
      if user.role ≠ .owner ∨ user.status ≠ .active then .fail AuthService.breakGlassRefused
      else do
        let owners ← execute .countActiveOwners
        if owners.length ≠ 1 then .fail AuthService.breakGlassRefused else pure user

/-- `break_glass_reset_mfa`. -/
def breakGlassResetMfa (username confirmation : String) : AuthProgram Unit :=
  let normalized := primitives.canonicalUsername username
  let expected := "RESET MFA FOR " ++ normalized
  if confirmation ≠ expected then
    .fail (.invalidArgument ("confirmation must exactly match: " ++ expected))
  else do
    let now ← now
    let user ← soleOwner normalized
    resetMfa user.userId now

/-- `break_glass_reset_password`. -/
def breakGlassResetPassword (username confirmation : String) (newPassword : Text) :
    AuthProgram Unit := do
  let normalized := primitives.canonicalUsername username
  ofExcept (AuthService.validateUsername normalized)
  let expected := "RESET PASSWORD FOR " ++ normalized
  if confirmation ≠ expected then
    .fail (.invalidArgument ("confirmation must exactly match: " ++ expected))
  else do
    ofExcept (AuthService.validatePassword newPassword)
    let passwordHash ← ofExcept (AuthService.hashPassword primitives fresh.salt newPassword)
    let now ← now
    let user ← soleOwner normalized
    setPassword user.userId passwordHash now

/-- `logout`. -/
def logout (principal : SessionPrincipal) : AuthProgram Unit := do
  let _ ← execute (.deleteSession principal.sessionId)
  pure ()

end Service

end AuthProgram

/-! ## Calls -/

/-- An operation of the service with its arguments. -/
inductive AuthRequest where
  | bootstrap (userId : Uuid) (username : String) (password : Text)
  | login (username : String) (password : Text) (bucket : RateLimitKey)
  | completeMfa (challengeToken : String) (value : Text)
      (expectedPurpose : Option ChallengePurpose)
  | beginMfaEnrollment (principal : SessionPrincipal)
  | reauthenticate (principal : SessionPrincipal) (password : Text) (mfaValue : Option Text)
  | regenerateRecoveryCodes (actor : SessionPrincipal)
  | changePassword (actor : SessionPrincipal) (currentPassword newPassword : Text)
      (mfaValue : Option Text)
  | activate (activationCode : String) (password : Text)
  | createUser (actor : SessionPrincipal) (username : String) (role : UserRole)
      (userId activationTokenId : Uuid) (activationCode : String)
  | reissueActivation (actor : SessionPrincipal) (userId activationTokenId : Uuid)
      (activationCode : String)
  | updateUser (actor : SessionPrincipal) (userId : Uuid) (role : UserRole)
      (status : UserStatus) (expectedVersion : Nat)
  | resetUserMfa (actor : SessionPrincipal) (userId : Uuid)
  | breakGlassResetMfa (username confirmation : String)
  | breakGlassResetPassword (username confirmation : String) (newPassword : Text)
  | logout (principal : SessionPrincipal)

/-- The principal that an operation was called by. -/
def AuthRequest.principal? : AuthRequest → Option SessionPrincipal
  | .beginMfaEnrollment principal => some principal
  | .reauthenticate principal _ _ => some principal
  | .regenerateRecoveryCodes actor => some actor
  | .changePassword actor _ _ _ => some actor
  | .createUser actor _ _ _ _ _ => some actor
  | .reissueActivation actor _ _ _ => some actor
  | .updateUser actor _ _ _ _ => some actor
  | .resetUserMfa actor _ => some actor
  | .logout principal => some principal
  | _ => none

/-- A request with the settings of the process that serves it and what it draws at
random. -/
structure AuthCall where
  request : AuthRequest
  settings : AuthSettings
  fresh : Fresh

namespace AuthCall

open AuthProgram

/-- The unit of work of a call. -/
def program (primitives : Primitives) (call : AuthCall) : AuthProgram Unit :=
  match call.request with
  | .bootstrap userId username password => do
      let _ ← bootstrap primitives call.fresh userId username password
      pure ()
  | .login username password bucket => do
      let _ ← login primitives call.settings call.fresh username password bucket
      pure ()
  | .completeMfa challengeToken value expectedPurpose => do
      let _ ← completeMfa primitives call.settings call.fresh challengeToken value expectedPurpose
      pure ()
  | .beginMfaEnrollment principal => do
      let _ ← beginMfaEnrollment primitives call.settings call.fresh principal
      pure ()
  | .reauthenticate principal password mfaValue => do
      let _ ← reauthenticate primitives call.settings principal password mfaValue
      pure ()
  | .regenerateRecoveryCodes actor => do
      let _ ← regenerateRecoveryCodes primitives call.settings call.fresh actor
      pure ()
  | .changePassword actor currentPassword newPassword mfaValue =>
      changePassword primitives call.settings call.fresh actor currentPassword newPassword mfaValue
  | .activate activationCode password => do
      let _ ← activate primitives call.settings call.fresh activationCode password
      pure ()
  | .createUser actor username role userId activationTokenId activationCode =>
      createUser primitives actor username role userId activationTokenId activationCode
  | .reissueActivation actor userId activationTokenId activationCode =>
      reissueActivation primitives actor userId activationTokenId activationCode
  | .updateUser actor userId role status expectedVersion => do
      let _ ← updateUser actor userId role status expectedVersion
      pure ()
  | .resetUserMfa actor userId => resetUserMfa actor userId
  | .breakGlassResetMfa username confirmation =>
      breakGlassResetMfa primitives username confirmation
  | .breakGlassResetPassword username confirmation newPassword =>
      breakGlassResetPassword primitives call.fresh username confirmation newPassword
  | .logout principal => logout principal

end AuthCall

end OpsComposer.Services
