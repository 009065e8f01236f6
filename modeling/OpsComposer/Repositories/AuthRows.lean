import OpsComposer.Foundations.RowLocks
import OpsComposer.Repositories.Auth

/-!
# The statements of the authentication repository

The rows of an `AuthStore` as a row store, and the statements of
`PostgresAuthRepository`: one constructor of `AuthStatement` is one SQL statement,
and `AuthStatement.meaning` says which rows it reads, locks, sets, deletes or adds.

`confirm_mfa_factor`, `replace_recovery_codes`, `reset_mfa` and `elevate_session`
execute several statements each.
-/

set_option autoImplicit false

namespace OpsComposer.Repositories

open Domain Foundations

/-! ## Rows -/

/-- What a row is found by. -/
inductive AuthKey where
  | user (userId : Uuid)
  | factor (userId : Uuid)
  | recoveryCode (recoveryCodeId : Uuid)
  | challenge (challengeId : Uuid)
  | session (sessionId : Uuid)
  | activationToken (activationTokenId : Uuid)
  | rateLimit (key : RateLimitKey)
  deriving DecidableEq

/-- A row of one of the tables. -/
inductive AuthRow where
  | user (row : User)
  | factor (row : MfaFactor)
  | recoveryCode (row : RecoveryCode)
  | challenge (row : AuthChallenge)
  | session (row : AuthSession)
  | activationToken (row : ActivationToken)
  | rateLimit (row : RateLimit)

namespace AuthRow

/-- The key of a row. -/
def key : AuthRow → AuthKey
  | .user row => .user row.userId
  | .factor row => .factor row.userId
  | .recoveryCode row => .recoveryCode row.recoveryCodeId
  | .challenge row => .challenge row.challengeId
  | .session row => .session row.sessionId
  | .activationToken row => .activationToken row.activationTokenId
  | .rateLimit row => .rateLimit row.key

/-- The rows of `users`. -/
def users : RowKind AuthRow User where
  wrap := .user
  unwrap
    | .user row => some row
    | _ => none

/-- The rows of `user_mfa_factors`. -/
def factors : RowKind AuthRow MfaFactor where
  wrap := .factor
  unwrap
    | .factor row => some row
    | _ => none

/-- The rows of `user_recovery_codes`. -/
def recoveryCodes : RowKind AuthRow RecoveryCode where
  wrap := .recoveryCode
  unwrap
    | .recoveryCode row => some row
    | _ => none

/-- The rows of `auth_challenges`. -/
def challenges : RowKind AuthRow AuthChallenge where
  wrap := .challenge
  unwrap
    | .challenge row => some row
    | _ => none

/-- The rows of `sessions`. -/
def sessions : RowKind AuthRow AuthSession where
  wrap := .session
  unwrap
    | .session row => some row
    | _ => none

/-- The rows of `user_activation_tokens`. -/
def activationTokens : RowKind AuthRow ActivationToken where
  wrap := .activationToken
  unwrap
    | .activationToken row => some row
    | _ => none

/-- The rows of `auth_rate_limits`. -/
def rateLimits : RowKind AuthRow RateLimit where
  wrap := .rateLimit
  unwrap
    | .rateLimit row => some row
    | _ => none

/-- The unique indexes besides the primary keys. -/
def clash (lower : String → String) : AuthRow → AuthRow → Bool
  | .user row, .user other => lower row.username = lower other.username
  | .recoveryCode row, .recoveryCode other =>
      row.userId = other.userId ∧ row.codeHash = other.codeHash
  | .challenge row, .challenge other => row.tokenHash = other.tokenHash
  | .session row, .session other => row.tokenHash = other.tokenHash
  | .activationToken row, .activationToken other =>
      row.tokenHash = other.tokenHash ∨
        (row.userId = other.userId ∧ row.consumedAt = none ∧ other.consumedAt = none)
  | _, _ => false

end AuthRow

namespace AuthStore

/-- The rows of all the tables. -/
def rows (store : AuthStore) : List AuthRow :=
  store.users.rows.map .user ++ store.factors.rows.map .factor ++
    store.recoveryCodes.rows.map .recoveryCode ++ store.challenges.rows.map .challenge ++
    store.sessions.rows.map .session ++ store.activationTokens.rows.map .activationToken ++
    store.rateLimits.rows.map .rateLimit

/-- The row with the key. -/
def lookup (store : AuthStore) : AuthKey → Option AuthRow
  | .user userId => (store.users.lookup userId).map .user
  | .factor userId => (store.factors.lookup userId).map .factor
  | .recoveryCode recoveryCodeId => (store.recoveryCodes.lookup recoveryCodeId).map .recoveryCode
  | .challenge challengeId => (store.challenges.lookup challengeId).map .challenge
  | .session sessionId => (store.sessions.lookup sessionId).map .session
  | .activationToken activationTokenId =>
      (store.activationTokens.lookup activationTokenId).map .activationToken
  | .rateLimit key => (store.rateLimits.lookup key).map .rateLimit

/-- The row replaces the one with its key. -/
def put (store : AuthStore) : AuthRow → AuthStore
  | .user row => { store with users := store.users.put row }
  | .factor row => { store with factors := store.factors.put row }
  | .recoveryCode row => { store with recoveryCodes := store.recoveryCodes.put row }
  | .challenge row => { store with challenges := store.challenges.put row }
  | .session row => { store with sessions := store.sessions.put row }
  | .activationToken row => { store with activationTokens := store.activationTokens.put row }
  | .rateLimit row => { store with rateLimits := store.rateLimits.put row }

/-- The row with the key is deleted. -/
def erase (store : AuthStore) : AuthKey → AuthStore
  | .user userId => { store with users := store.users.delete fun row => row.userId = userId }
  | .factor userId => { store with factors := store.factors.delete fun row => row.userId = userId }
  | .recoveryCode recoveryCodeId =>
      { store with
        recoveryCodes := store.recoveryCodes.delete fun row => row.recoveryCodeId = recoveryCodeId }
  | .challenge challengeId =>
      { store with challenges := store.challenges.delete fun row => row.challengeId = challengeId }
  | .session sessionId =>
      { store with sessions := store.sessions.delete fun row => row.sessionId = sessionId }
  | .activationToken activationTokenId =>
      { store with
        activationTokens :=
          store.activationTokens.delete fun row => row.activationTokenId = activationTokenId }
  | .rateLimit key => { store with rateLimits := store.rateLimits.delete fun row => row.key = key }

theorem lookup_eq_some (store : AuthStore) (k : AuthKey) (r : AuthRow) :
    store.lookup k = some r ↔ r ∈ store.rows ∧ r.key = k := by
  cases k <;> cases r <;>
    simp [lookup, rows, AuthRow.key, Table.lookup_eq_some_iff]

theorem lookup_put (store : AuthStore) (r : AuthRow) (k : AuthKey) :
    (store.put r).lookup k = if r.key = k then some r else store.lookup k := by
  cases r <;> cases k <;>
    simp only [lookup, put, AuthRow.key, Table.lookup_put, AuthKey.user.injEq,
      AuthKey.factor.injEq, AuthKey.recoveryCode.injEq, AuthKey.challenge.injEq,
      AuthKey.session.injEq, AuthKey.activationToken.injEq, AuthKey.rateLimit.injEq,
      reduceCtorEq, if_false] <;>
    split <;> rfl

theorem lookup_erase (store : AuthStore) (k k' : AuthKey) :
    (store.erase k).lookup k' = if k = k' then none else store.lookup k' := by
  cases k <;> cases k' <;>
    simp only [lookup, erase, Table.lookup_delete_at, AuthKey.user.injEq,
      AuthKey.factor.injEq, AuthKey.recoveryCode.injEq, AuthKey.challenge.injEq,
      AuthKey.session.injEq, AuthKey.activationToken.injEq, AuthKey.rateLimit.injEq,
      reduceCtorEq, if_false] <;>
    split <;> rfl

instance : RowStore AuthStore AuthKey AuthRow where
  key := AuthRow.key
  rows := rows
  lookup := lookup
  put := put
  erase := erase
  lookup_eq_some := lookup_eq_some
  lookup_put := lookup_put
  lookup_erase := lookup_erase

end AuthStore

/-! ## Statements -/

/-- The SQL statements of the repository, with their parameters. -/
inductive AuthStatement where
  | countUsers
  | getUser (userId : Uuid)
  | findUserByUsername (username : String)
  | countActiveOwners
  | addUser (user : User)
  | updateUser (userId : Uuid) (role : UserRole) (status : UserStatus)
      (expectedVersion now : Nat)
  | activateUser (userId : Uuid) (passwordHash : String) (mfaEnrollmentRequired : Bool)
      (now : Nat)
  | updatePasswordHash (userId : Uuid) (passwordHash : String) (now : Nat)
  | addActivationToken (token : ActivationToken)
  | invalidateActivationTokens (userId : Uuid) (now : Nat)
  | consumeActivationToken (tokenHash : String) (now : Nat)
  | addSession (session : AuthSession)
  | deleteSession (sessionId : Uuid)
  | deleteUserSessions (userId : Uuid)
  | elevateSession (sessionId : Uuid) (reauthenticatedAt elevatedUntil : Nat)
  | sessionPrincipal (sessionId : Uuid)
  | addChallenge (challenge : AuthChallenge)
  | resolveChallenge (tokenHash : String) (now : Nat)
  | markChallengeConsumed (challengeId : Uuid) (now : Nat)
  | getMfaFactor (userId : Uuid)
  | putMfaFactor (factor : MfaFactor)
  | confirmMfaFactor (userId : Uuid) (now : Nat)
  /-- The second statement of `confirm_mfa_factor`. -/
  | endEnrollment (userId : Uuid) (now : Nat)
  | acceptTotpStep (userId : Uuid) (step now : Nat)
  | deleteRecoveryCodes (userId : Uuid)
  | addRecoveryCode (code : RecoveryCode)
  | consumeRecoveryCode (userId : Uuid) (codeHash : String) (now : Nat)
  | deleteMfaFactor (userId : Uuid)
  /-- The last statement of `reset_mfa`. -/
  | requireEnrollment (userId : Uuid) (now : Nat)
  | clearRateLimit (key : RateLimitKey)

section Commands

variable {τ : Type} (kind : RowKind AuthRow τ)

/-- `UPDATE` of one table. -/
def setRows (condition : τ → Bool) (f : τ → τ)
    (keeps : ∀ t, (kind.wrap (f t)).key = (kind.wrap t).key) (watched : Bool := false) :
    Command AuthStore AuthKey AuthRow :=
  .update (kind.meets condition) (kind.map f) (kind.map_keeps keeps) watched fun row => [row]

/-- `DELETE` from one table. -/
def deleteRows (condition : τ → Bool) : Command AuthStore AuthKey AuthRow :=
  .delete (kind.meets condition)

end Commands

/-- The factor row that the upsert of `put_mfa_factor` leaves in place of an old one. -/
def replacedFactor (factor old : MfaFactor) : MfaFactor where
  userId := old.userId
  encryptedTotpSecret := factor.encryptedTotpSecret
  encryptionKeyVersion := factor.encryptionKeyVersion
  lastAcceptedStep := none
  confirmedAt := none
  createdAt := old.createdAt
  updatedAt := factor.updatedAt

namespace AuthStatement

open AuthRepository

/-- The user that the token of a row of `consume_activation_token` belongs to. -/
def grantedUser (store : AuthStore) : AuthRow → List AuthRow
  | .activationToken token => ((store.users.lookup token.userId).map AuthRow.user).toList
  | _ => []

/-- The joined rows of a principal: session, user and confirmed factor. -/
def principalRows (store : AuthStore) (sessionId : Uuid) : List AuthRow :=
  match store.sessions.lookup sessionId with
  | none => []
  | some session =>
      match store.users.lookup session.userId with
      | none => []
      | some user =>
          if user.status = .active then
            [.session session, .user user] ++
              (((store.factors.lookup user.userId).filter fun factor =>
                factor.confirmedAt.isSome).map AuthRow.factor).toList
          else []

/-- What a statement does, given what its snapshot shows. -/
def meaning (lower : String → String) (statement : AuthStatement) (store : AuthStore) :
    Command AuthStore AuthKey AuthRow :=
  match statement with
  | .countUsers => .select (store.users.rows.map .user)
  | .getUser userId => .select ((AuthRepository.getUser store userId).toList.map .user)
  | .findUserByUsername username =>
      .select ((AuthRepository.findUserByUsername lower store username).toList.map .user)
  | .countActiveOwners =>
      .select ((store.users.select fun user => user.role = .owner ∧ user.status = .active).map
        .user)
  | .addUser user => .insert (.user user) false
  | .updateUser userId role status expectedVersion now =>
      setRows AuthRow.users (fun user => user.userId = userId ∧ user.version = expectedVersion)
        (updatedUser store role status now) (fun _ => rfl) true
  | .activateUser userId passwordHash mfaEnrollmentRequired now =>
      setRows AuthRow.users
        (fun user => user.userId = userId ∧ user.status = .pendingActivation)
        (activatedUser passwordHash mfaEnrollmentRequired now) (fun _ => rfl) true
  | .updatePasswordHash userId passwordHash now =>
      setRows AuthRow.users (fun user => user.userId = userId)
        (fun user =>
          { user with
            passwordHash := some passwordHash
            passwordUpdatedAt := some now
            updatedAt := now
            version := user.version + 1 }) fun _ => rfl
  | .addActivationToken token => .insert (.activationToken token) false
  | .invalidateActivationTokens userId now =>
      setRows AuthRow.activationTokens
        (fun token => token.userId = userId ∧ token.consumedAt = none)
        (fun token => { token with consumedAt := some now }) fun _ => rfl
  | .consumeActivationToken tokenHash now =>
      .update
        (AuthRow.activationTokens.meets fun token =>
          token.tokenHash = tokenHash ∧ token.consumedAt = none ∧ now < token.expiresAt ∧
            ∃ user ∈ store.users.lookup token.userId, user.status = .pendingActivation)
        (AuthRow.activationTokens.map fun token => { token with consumedAt := some now })
        (AuthRow.activationTokens.map_keeps fun _ => rfl) false (grantedUser store)
  | .addSession session => .insert (.session session) false
  | .deleteSession sessionId =>
      deleteRows AuthRow.sessions fun session => session.sessionId = sessionId
  | .deleteUserSessions userId => deleteRows AuthRow.sessions fun session => session.userId = userId
  | .elevateSession sessionId reauthenticatedAt elevatedUntil =>
      setRows AuthRow.sessions (fun session => session.sessionId = sessionId)
        (fun session =>
          { session with
            reauthenticatedAt := some reauthenticatedAt
            elevatedUntil := some elevatedUntil }) fun _ => rfl
  | .sessionPrincipal sessionId => .select (principalRows store sessionId)
  | .addChallenge challenge => .insert (.challenge challenge) false
  | .resolveChallenge tokenHash now =>
      .lock (AuthRow.challenges.meets fun challenge =>
        challenge.tokenHash = tokenHash ∧ challenge.consumedAt = none ∧ now < challenge.expiresAt)
  | .markChallengeConsumed challengeId now =>
      setRows AuthRow.challenges
        (fun challenge => challenge.challengeId = challengeId ∧ challenge.consumedAt = none)
        (fun challenge => { challenge with consumedAt := some now }) fun _ => rfl
  | .getMfaFactor userId => .select ((AuthRepository.getMfaFactor store userId).toList.map .factor)
  | .putMfaFactor factor =>
      .upsert (.factor factor) (AuthRow.factors.map (replacedFactor factor))
        (AuthRow.factors.map_keeps fun _ => rfl)
  | .confirmMfaFactor userId now =>
      setRows AuthRow.factors (fun factor => factor.userId = userId)
        (fun factor => { factor with confirmedAt := some now, updatedAt := now }) fun _ => rfl
  | .endEnrollment userId now =>
      setRows AuthRow.users (fun user => user.userId = userId)
        (fun user =>
          { user with
            mfaEnrollmentRequired := false
            updatedAt := now
            version := user.version + 1 }) fun _ => rfl
  | .acceptTotpStep userId step now =>
      setRows AuthRow.factors (fun factor => decide (AcceptsStep userId step factor))
        (fun factor => { factor with lastAcceptedStep := some step, updatedAt := now })
        fun _ => rfl
  | .deleteRecoveryCodes userId =>
      deleteRows AuthRow.recoveryCodes fun code => code.userId = userId
  | .addRecoveryCode code => .insert (.recoveryCode code) false
  | .consumeRecoveryCode userId codeHash now =>
      setRows AuthRow.recoveryCodes (fun code => decide (Unused userId codeHash code))
        (fun code => { code with usedAt := some now }) fun _ => rfl
  | .deleteMfaFactor userId => deleteRows AuthRow.factors fun factor => factor.userId = userId
  | .requireEnrollment userId now =>
      setRows AuthRow.users (fun user => user.userId = userId)
        (fun user =>
          { user with
            mfaEnrollmentRequired := true
            updatedAt := now
            version := user.version + 1 }) fun _ => rfl
  | .clearRateLimit key => deleteRows AuthRow.rateLimits fun limit => limit.key = key

end AuthStatement

/-! ## What the statements change -/

section Changes

variable {τ : Type} {kind : RowKind AuthRow τ} {condition : τ → Bool} {f : τ → τ}
  {before after : Option AuthRow}

theorem changes_setRows {watched : Bool} {returning : AuthRow → List AuthRow}
    {keeps : ∀ r, RowStore.key AuthStore (kind.map f r) = RowStore.key AuthStore r}
    (change : Command.Changes (.update (kind.meets condition) (kind.map f) keeps watched returning)
      before after) :
    ∃ t, before = some (kind.wrap t) ∧ condition t = true ∧ after = some (kind.wrap (f t)) := by
  cases change with
  | update holds =>
      obtain ⟨t, rfl, met⟩ := kind.meets_iff.mp holds
      exact ⟨t, rfl, met, by rw [kind.map_wrap]⟩

theorem changes_deleteRows (change : Command.Changes (deleteRows kind condition) before after) :
    ∃ t, before = some (kind.wrap t) ∧ condition t = true ∧ after = none := by
  cases change with
  | delete holds =>
      obtain ⟨t, rfl, met⟩ := kind.meets_iff.mp holds
      exact ⟨t, rfl, met, rfl⟩

theorem changes_insert {row : AuthRow} {doNothing : Bool}
    (change : Command.Changes (σ := AuthStore) (.insert row doNothing) before after) :
    before = none ∧ after = some row := by
  cases change with
  | insert => exact ⟨rfl, rfl⟩

theorem changes_upsert {row : AuthRow} {f : AuthRow → AuthRow}
    {keeps : ∀ r, RowStore.key AuthStore (f r) = RowStore.key AuthStore r}
    (change : Command.Changes (.upsert row f keeps) before after) :
    (before = none ∧ after = some row) ∨
      ∃ old, before = some old ∧ old.key = row.key ∧ after = some (f old) := by
  cases change with
  | added => exact .inl ⟨rfl, rfl⟩
  | replaced same => exact .inr ⟨_, rfl, same, rfl⟩

end Changes

/-- What a statement does to the row under a key: the row before, and the row after. -/
inductive AuthChange (store : AuthStore) :
    AuthStatement → Option AuthRow → Option AuthRow → Prop where
  | addUser (user : User) : AuthChange store (.addUser user) none (some (.user user))
  | updateUser {userId : Uuid} {role : UserRole} {status : UserStatus}
      {expectedVersion now : Nat} (user : User) (named : user.userId = userId) :
      AuthChange store (.updateUser userId role status expectedVersion now) (some (.user user))
        (some (.user (AuthRepository.updatedUser store role status now user)))
  | activateUser {userId : Uuid} {passwordHash : String} {mfaEnrollmentRequired : Bool}
      {now : Nat} (user : User) (named : user.userId = userId)
      (isPending : user.status = .pendingActivation) :
      AuthChange store (.activateUser userId passwordHash mfaEnrollmentRequired now)
        (some (.user user))
        (some (.user (AuthRepository.activatedUser passwordHash mfaEnrollmentRequired now user)))
  | updatePasswordHash {userId : Uuid} {passwordHash : String} {now : Nat} (user : User)
      (named : user.userId = userId) :
      AuthChange store (.updatePasswordHash userId passwordHash now) (some (.user user))
        (some (.user
          { user with
            passwordHash := some passwordHash
            passwordUpdatedAt := some now
            updatedAt := now
            version := user.version + 1 }))
  | endEnrollment {userId : Uuid} {now : Nat} (user : User) (named : user.userId = userId) :
      AuthChange store (.endEnrollment userId now) (some (.user user))
        (some (.user
          { user with
            mfaEnrollmentRequired := false
            updatedAt := now
            version := user.version + 1 }))
  | requireEnrollment {userId : Uuid} {now : Nat} (user : User) (named : user.userId = userId) :
      AuthChange store (.requireEnrollment userId now) (some (.user user))
        (some (.user
          { user with
            mfaEnrollmentRequired := true
            updatedAt := now
            version := user.version + 1 }))
  | addActivationToken (token : ActivationToken) :
      AuthChange store (.addActivationToken token) none (some (.activationToken token))
  | invalidateActivationTokens {userId : Uuid} {now : Nat} (token : ActivationToken) :
      AuthChange store (.invalidateActivationTokens userId now) (some (.activationToken token))
        (some (.activationToken { token with consumedAt := some now }))
  | consumeActivationToken {tokenHash : String} {now : Nat} (token : ActivationToken) :
      AuthChange store (.consumeActivationToken tokenHash now) (some (.activationToken token))
        (some (.activationToken { token with consumedAt := some now }))
  | addSession (session : AuthSession) :
      AuthChange store (.addSession session) none (some (.session session))
  | deleteSession {sessionId : Uuid} (session : AuthSession) :
      AuthChange store (.deleteSession sessionId) (some (.session session)) none
  | deleteUserSessions {userId : Uuid} (session : AuthSession) :
      AuthChange store (.deleteUserSessions userId) (some (.session session)) none
  | elevateSession {sessionId : Uuid} {reauthenticatedAt elevatedUntil : Nat}
      (session : AuthSession) :
      AuthChange store (.elevateSession sessionId reauthenticatedAt elevatedUntil)
        (some (.session session))
        (some (.session
          { session with
            reauthenticatedAt := some reauthenticatedAt
            elevatedUntil := some elevatedUntil }))
  | addChallenge (challenge : AuthChallenge) :
      AuthChange store (.addChallenge challenge) none (some (.challenge challenge))
  | resolveChallenge {tokenHash : String} {now : Nat} (challenge : AuthChallenge)
      (valid : challenge.tokenHash = tokenHash ∧ challenge.consumedAt = none ∧
        now < challenge.expiresAt) :
      AuthChange store (.resolveChallenge tokenHash now) (some (.challenge challenge))
        (some (.challenge challenge))
  | markChallengeConsumed {challengeId : Uuid} {now : Nat} (challenge : AuthChallenge)
      (named : challenge.challengeId = challengeId) :
      AuthChange store (.markChallengeConsumed challengeId now) (some (.challenge challenge))
        (some (.challenge { challenge with consumedAt := some now }))
  | putMfaFactor (factor : MfaFactor) :
      AuthChange store (.putMfaFactor factor) none (some (.factor factor))
  | replaceMfaFactor {factor : MfaFactor} (old : MfaFactor) (same : old.userId = factor.userId) :
      AuthChange store (.putMfaFactor factor) (some (.factor old))
        (some (.factor (replacedFactor factor old)))
  | confirmMfaFactor {userId : Uuid} {now : Nat} (factor : MfaFactor)
      (named : factor.userId = userId) :
      AuthChange store (.confirmMfaFactor userId now) (some (.factor factor))
        (some (.factor { factor with confirmedAt := some now, updatedAt := now }))
  | acceptTotpStep {userId : Uuid} {step now : Nat} (factor : MfaFactor)
      (accepts : AuthRepository.AcceptsStep userId step factor) :
      AuthChange store (.acceptTotpStep userId step now) (some (.factor factor))
        (some (.factor { factor with lastAcceptedStep := some step, updatedAt := now }))
  | deleteMfaFactor {userId : Uuid} (factor : MfaFactor) (named : factor.userId = userId) :
      AuthChange store (.deleteMfaFactor userId) (some (.factor factor)) none
  | deleteRecoveryCodes {userId : Uuid} (code : RecoveryCode) (named : code.userId = userId) :
      AuthChange store (.deleteRecoveryCodes userId) (some (.recoveryCode code)) none
  | addRecoveryCode (code : RecoveryCode) :
      AuthChange store (.addRecoveryCode code) none (some (.recoveryCode code))
  | consumeRecoveryCode {userId : Uuid} {codeHash : String} {now : Nat} (code : RecoveryCode)
      (isUnused : AuthRepository.Unused userId codeHash code) :
      AuthChange store (.consumeRecoveryCode userId codeHash now) (some (.recoveryCode code))
        (some (.recoveryCode { code with usedAt := some now }))
  | clearRateLimit {key : RateLimitKey} (limit : RateLimit) :
      AuthChange store (.clearRateLimit key) (some (.rateLimit limit)) none

/-- **Inversion** of a statement, row by row. -/
theorem authChange_of_changes {lower : String → String} {statement : AuthStatement}
    {store : AuthStore} {before after : Option AuthRow}
    (change : Command.Changes (statement.meaning lower store) before after) :
    AuthChange store statement before after := by
  cases statement with
  | countUsers | getUser _ | findUserByUsername _ | countActiveOwners | sessionPrincipal _
  | getMfaFactor _ => cases change
  | addUser user =>
      obtain ⟨rfl, rfl⟩ := changes_insert change
      exact .addUser user
  | addActivationToken token =>
      obtain ⟨rfl, rfl⟩ := changes_insert change
      exact .addActivationToken token
  | addSession session =>
      obtain ⟨rfl, rfl⟩ := changes_insert change
      exact .addSession session
  | addChallenge challenge =>
      obtain ⟨rfl, rfl⟩ := changes_insert change
      exact .addChallenge challenge
  | addRecoveryCode code =>
      obtain ⟨rfl, rfl⟩ := changes_insert change
      exact .addRecoveryCode code
  | updateUser _ _ _ _ _ =>
      obtain ⟨user, rfl, met, rfl⟩ := changes_setRows change
      exact .updateUser user (of_decide_eq_true met).1
  | activateUser _ _ _ _ =>
      obtain ⟨user, rfl, met, rfl⟩ := changes_setRows change
      exact .activateUser user (of_decide_eq_true met).1 (of_decide_eq_true met).2
  | updatePasswordHash _ _ _ =>
      obtain ⟨user, rfl, met, rfl⟩ := changes_setRows change
      exact .updatePasswordHash user (of_decide_eq_true met)
  | endEnrollment _ _ =>
      obtain ⟨user, rfl, met, rfl⟩ := changes_setRows change
      exact .endEnrollment user (of_decide_eq_true met)
  | requireEnrollment _ _ =>
      obtain ⟨user, rfl, met, rfl⟩ := changes_setRows change
      exact .requireEnrollment user (of_decide_eq_true met)
  | invalidateActivationTokens _ _ =>
      obtain ⟨token, rfl, -, rfl⟩ := changes_setRows change
      exact .invalidateActivationTokens token
  | consumeActivationToken _ _ =>
      obtain ⟨token, rfl, -, rfl⟩ := changes_setRows change
      exact .consumeActivationToken token
  | elevateSession _ _ _ =>
      obtain ⟨session, rfl, -, rfl⟩ := changes_setRows change
      exact .elevateSession session
  | markChallengeConsumed _ _ =>
      obtain ⟨challenge, rfl, met, rfl⟩ := changes_setRows change
      exact .markChallengeConsumed challenge (of_decide_eq_true met).1
  | confirmMfaFactor _ _ =>
      obtain ⟨factor, rfl, met, rfl⟩ := changes_setRows change
      exact .confirmMfaFactor factor (of_decide_eq_true met)
  | acceptTotpStep _ _ _ =>
      obtain ⟨factor, rfl, met, rfl⟩ := changes_setRows change
      exact .acceptTotpStep factor (of_decide_eq_true met)
  | consumeRecoveryCode _ _ _ =>
      obtain ⟨code, rfl, met, rfl⟩ := changes_setRows change
      exact .consumeRecoveryCode code (of_decide_eq_true met)
  | deleteSession _ =>
      obtain ⟨session, rfl, -, rfl⟩ := changes_deleteRows change
      exact .deleteSession session
  | deleteUserSessions _ =>
      obtain ⟨session, rfl, -, rfl⟩ := changes_deleteRows change
      exact .deleteUserSessions session
  | deleteMfaFactor _ =>
      obtain ⟨factor, rfl, met, rfl⟩ := changes_deleteRows change
      exact .deleteMfaFactor factor (of_decide_eq_true met)
  | deleteRecoveryCodes _ =>
      obtain ⟨code, rfl, met, rfl⟩ := changes_deleteRows change
      exact .deleteRecoveryCodes code (of_decide_eq_true met)
  | clearRateLimit _ =>
      obtain ⟨limit, rfl, -, rfl⟩ := changes_deleteRows change
      exact .clearRateLimit limit
  | resolveChallenge _ _ =>
      cases change with
      | update holds =>
          obtain ⟨challenge, rfl, met⟩ := AuthRow.challenges.meets_iff.mp holds
          exact .resolveChallenge challenge (of_decide_eq_true met)
  | putMfaFactor factor =>
      rcases changes_upsert change with ⟨rfl, rfl⟩ | ⟨old, rfl, same, rfl⟩
      · exact .putMfaFactor factor
      · cases old with
        | factor old => exact .replaceMfaFactor old (by simpa [AuthRow.key] using same)
        | _ => simp [AuthRow.key] at same

end OpsComposer.Repositories
