import OpsComposer.Accounts.System
import OpsComposer.Foundations.RowOrigins

/-!
# Which call executes which statement

Two facts that every result about accounts uses:

* `Permitted` — what a call may execute at all, and with which of the values that it
  has drawn; `permitted_program` goes through the code of every operation once;
* `Source` — the statement that a row stems from, which says what about the row never
  changes; with `Db.Sourced`, every row was added by the call that `Permitted` allows.
-/

set_option autoImplicit false

namespace OpsComposer.Accounts

open Domain Foundations Repositories Services

/-! ## Where rows come from -/

/-- The row has been added by the statement, or has its content from it. -/
def Source : AuthStatement → AuthRow → Prop
  | .addUser added, .user row => row.userId = added.userId ∧ row.username = added.username
  | .addSession added, .session row =>
      row.sessionId = added.sessionId ∧ row.userId = added.userId ∧
        row.mfaVerifiedAt = added.mfaVerifiedAt
  | .addChallenge added, .challenge row =>
      row.challengeId = added.challengeId ∧ row.userId = added.userId ∧
        row.tokenHash = added.tokenHash ∧ row.purpose = added.purpose ∧
          row.expiresAt = added.expiresAt
  | .addRecoveryCode added, .recoveryCode row =>
      row.recoveryCodeId = added.recoveryCodeId ∧ row.userId = added.userId ∧
        row.codeHash = added.codeHash
  | .addActivationToken added, .activationToken row =>
      row.activationTokenId = added.activationTokenId ∧ row.userId = added.userId
  | .putMfaFactor put, .factor row =>
      row.userId = put.userId ∧ row.encryptedTotpSecret = put.encryptedTotpSecret ∧
        row.encryptionKeyVersion = put.encryptionKeyVersion
  | _, _ => False

variable (primitives : Primitives)

/-- Every statement that changes a row keeps what the row stems from. -/
theorem keeps_source : (authService primitives).Keeps Source := by
  intro statement store before row change
  generalize after : some row = after? at change
  cases authChange_of_changes change with
  | addUser user | addActivationToken token => cases after; exact .inl ⟨rfl, rfl⟩
  | addSession session | addRecoveryCode code | putMfaFactor factor =>
      cases after; exact .inl ⟨rfl, rfl, rfl⟩
  | addChallenge challenge => cases after; exact .inl ⟨rfl, rfl, rfl, rfl, rfl⟩
  | replaceMfaFactor old same => cases after; exact .inl ⟨same, rfl, rfl⟩
  | deleteSession _ | deleteUserSessions _ | deleteMfaFactor _ _ | deleteRecoveryCodes _ _
  | clearRateLimit _ => cases after
  | updateUser _ _ => cases after; exact .inr ⟨_, rfl, fun other source => by cases other <;> exact source⟩
  | activateUser _ _ _ | updatePasswordHash _ _ | endEnrollment _ _ | requireEnrollment _ _
  | invalidateActivationTokens _ | consumeActivationToken _ | elevateSession _
  | markChallengeConsumed _ _ | confirmMfaFactor _ _ | acceptTotpStep _ _
  | consumeRecoveryCode _ _ =>
      cases after; exact .inr ⟨_, rfl, fun other source => by cases other <;> exact source⟩
  | resolveChallenge _ _ => cases after; exact .inr ⟨_, rfl, fun _ => id⟩

/-! ## What statements return -/

/-- The rows that a statement can return. -/
def Told : AuthStatement → List AuthRow → Prop
  | .getUser userId, rows => ∀ row ∈ rows, ∃ user, row = .user user ∧ user.userId = userId
  | .findUserByUsername _, rows => ∀ row ∈ rows, ∃ user, row = .user user
  | .getMfaFactor userId, rows =>
      rows = [] ∨ ∃ factor, rows = [.factor factor] ∧ factor.userId = userId
  | .resolveChallenge tokenHash now, rows =>
      ∀ row ∈ rows, ∃ challenge, row = .challenge challenge ∧ challenge.tokenHash = tokenHash ∧
        challenge.consumedAt = none ∧ now < challenge.expiresAt
  | _, _ => True

theorem tells : (authService primitives).Tells Told := by
  intro statement snapshot current rows writes done
  cases statement with
  | getUser userId =>
      obtain ⟨rfl, -⟩ : rows = (AuthRepository.getUser snapshot userId).toList.map .user ∧
          writes = [] := by
        simpa [authService, AuthStatement.meaning, Command.perform, eq_comm] using done
      intro row member
      obtain ⟨user, found, rfl⟩ := List.mem_map.mp member
      exact ⟨user, rfl, Table.key_of_lookup (Option.mem_toList.mp found)⟩
  | findUserByUsername username =>
      obtain ⟨rfl, -⟩ : rows = (AuthRepository.findUserByUsername primitives.lower snapshot
          username).toList.map .user ∧ writes = [] := by
        simpa [authService, AuthStatement.meaning, Command.perform, eq_comm] using done
      intro row member
      obtain ⟨user, -, rfl⟩ := List.mem_map.mp member
      exact ⟨user, rfl⟩
  | getMfaFactor userId =>
      obtain ⟨rfl, -⟩ : rows = (AuthRepository.getMfaFactor snapshot userId).toList.map .factor ∧
          writes = [] := by
        simpa [authService, AuthStatement.meaning, Command.perform, eq_comm] using done
      cases found : AuthRepository.getMfaFactor snapshot userId with
      | none => exact .inl rfl
      | some factor => exact .inr ⟨factor, rfl, Table.key_of_lookup found⟩
  | resolveChallenge tokenHash now =>
      obtain ⟨rfl, -⟩ := Command.perform_set done
      intro row member
      simp only [List.map_id] at member
      obtain ⟨challenge, rfl, holds⟩ := AuthRow.challenges.meets_iff.mp (Command.mem_found.mp member).2.1
      exact ⟨challenge, rfl, of_decide_eq_true holds⟩
  | _ => trivial

/-! ## What a call may execute -/

/-- The call is a `complete_mfa`. -/
def IsCompletion (call : AuthCall) : Prop :=
  ∃ challengeToken value expectedPurpose,
    call.request = .completeMfa challengeToken value expectedPurpose

/-- The code that a request presents as a second factor. -/
def mfaValue? : AuthRequest → Option Text
  | .completeMfa _ value _ => some value
  | .reauthenticate _ _ mfaValue => mfaValue
  | .changePassword _ _ _ mfaValue => mfaValue
  | _ => none

/-- The request replaces a set of recovery codes. -/
def Renews (request : AuthRequest) : Prop :=
  (∃ challengeToken value expectedPurpose,
    request = .completeMfa challengeToken value expectedPurpose) ∨
    ∃ actor, request = .regenerateRecoveryCodes actor

theorem mfaValue_of_completion {call : AuthCall} (completion : IsCompletion call) :
    mfaValue? call.request ≠ none := by
  obtain ⟨challengeToken, value, expectedPurpose, request⟩ := completion
  simp [request, mfaValue?]

/-- The statements that a call may execute. -/
def Permitted (call : AuthCall) : AuthStatement → Prop
  | .addSession session =>
      session.sessionId = call.fresh.sessionId ∧
        (session.mfaVerifiedAt ≠ none → IsCompletion call)
  | .addChallenge challenge => challenge.challengeId = call.fresh.challengeId
  | .putMfaFactor factor =>
      factor.encryptedTotpSecret =
          (primitives.encryptTotp call.fresh.nonce factor.userId call.fresh.totpSecret).1 ∧
        factor.encryptionKeyVersion =
          (primitives.encryptTotp call.fresh.nonce factor.userId call.fresh.totpSecret).2 ∧
        factor.lastAcceptedStep = none ∧ factor.confirmedAt = none ∧
        mfaValue? call.request = none
  | .deleteMfaFactor _ => mfaValue? call.request = none
  | .addRecoveryCode code =>
      (∃ row ∈ call.fresh.recoveryCodes, row.1 = code.recoveryCodeId) ∧ code.usedAt = none ∧
        Renews call.request
  | .confirmMfaFactor _ _ => IsCompletion call
  | .acceptTotpStep _ _ _ => mfaValue? call.request ≠ none
  | .consumeRecoveryCode _ _ _ => mfaValue? call.request ≠ none
  | _ => True

/-- The calls that add, update and activate users, with the codes for it. -/
def managesUsers : AuthRequest → Bool
  | .bootstrap _ _ _ => true
  | .activate _ _ => true
  | .createUser _ _ _ _ _ _ => true
  | .reissueActivation _ _ _ _ => true
  | .updateUser _ _ _ _ _ => true
  | _ => false

/-- The permitted statements but for those that only such calls execute. -/
def Tame (call : AuthCall) : AuthStatement → Prop
  | .addUser _ => False
  | .updateUser _ _ _ _ _ => False
  | .activateUser _ _ _ _ => False
  | .addActivationToken _ => False
  | .invalidateActivationTokens _ _ => False
  | .consumeActivationToken _ _ => False
  | statement => Permitted primitives call statement

section Issues

open AuthProgram Program

variable {primitives : Primitives} {call : AuthCall}

theorem permitted_of_tame {α : Type} {program : AuthProgram α}
    (issues : Issues (Tame primitives call) program) :
    Issues (Permitted primitives call) program := by
  refine issues.mono fun statement tame => ?_
  cases statement <;> first | exact tame | exact tame.elim

theorem issues_ofExcept {α : Type} {allowed : AuthStatement → Prop} (answer : Except AuthError α) :
    Issues allowed (ofExcept answer) := by
  cases answer <;> trivial

theorem issues_issue (user : User) (mfaEnabled : Bool) {mfaVerifiedAt : Option Nat}
    (elevated : Bool) (completion : mfaVerifiedAt ≠ none → IsCompletion call) :
    Issues (Tame primitives call)
      (issue primitives call.settings call.fresh user mfaEnabled mfaVerifiedAt elevated) := by
  simpa [issue, Tame, Permitted, AuthService.sessionRow] using completion

theorem issues_issueChallenge (quiet : mfaValue? call.request = none) (user : User)
    (purpose : ChallengePurpose) (enrolling : Bool) :
    Issues (Tame primitives call)
      (issueChallenge primitives call.settings call.fresh user purpose enrolling) := by
  unfold issueChallenge
  split
  · trivial
  · cases enrolling <;>
      simp [Tame, Permitted, AuthService.challengeRow, AuthService.pendingFactor, quiet]

theorem issues_signIn (quiet : mfaValue? call.request = none) (user : User)
    (factor : Option MfaFactor) :
    Issues (Tame primitives call)
      (signIn primitives call.settings call.fresh user factor) := by
  dsimp only [signIn]
  split
  · exact issues_bind (issues_issue user _ true (by simp)) fun _ => trivial
  · split
    · exact issues_bind (issues_issueChallenge quiet user _ true) fun _ => trivial
    · split
      · exact issues_bind (issues_issueChallenge quiet user _ false) fun _ => trivial
      · exact issues_bind (issues_issue user false false (by simp)) fun _ => trivial

theorem issues_login (quiet : mfaValue? call.request = none) (username : String)
    (password : Text) (bucket : RateLimitKey) :
    Issues (Tame primitives call)
      (login primitives call.settings call.fresh username password bucket) := by
  simp only [login, findUserByUsername_bind, issues_run]
  refine ⟨trivial, fun rows => ?_⟩
  split
  · trivial
  next user verification _ =>
    split
    · trivial
    · split
      · refine issues_bind (issues_ofExcept _) fun passwordHash => ?_
        exact fun now => ⟨trivial, fun _ => ⟨trivial, fun _ =>
          ⟨trivial, fun _ => issues_signIn quiet user _⟩⟩⟩
      · exact ⟨trivial, fun _ => ⟨trivial, fun _ => issues_signIn quiet user _⟩⟩

theorem issues_verifyMfaValue (presented : mfaValue? call.request ≠ none) (factor : MfaFactor)
    (value : Text) (allowRecovery : Bool) :
    Issues (Tame primitives call)
      (verifyMfaValue primitives factor value allowRecovery) := by
  simp only [verifyMfaValue, now_bind, issues_clock]
  intro now
  split
  · trivial
  · split
    · trivial
    · exact ⟨presented, fun _ => trivial⟩
    · split
      · split
        · trivial
        · exact ⟨presented, fun _ => trivial⟩
      · trivial

variable {rows : List (Uuid × String)}

theorem issues_addRecoveryCodes (renews : Renews call.request) (userId : Uuid) (now : Nat)
    (drawn : ∀ row ∈ rows, ∃ code ∈ call.fresh.recoveryCodes, code.1 = row.1) :
    Issues (Tame primitives call) (addRecoveryCodes userId now rows) := by
  induction rows with
  | nil => trivial
  | cons row rows ih =>
      exact ⟨⟨drawn row (List.mem_cons_self ..), rfl, renews⟩, fun _ =>
        ih fun other member => drawn other (List.mem_cons_of_mem _ member)⟩

/-- The ids of the rows are the ones drawn. -/
theorem drawn_of_recoveryCodeRows (hashed : recoveryCodeRows primitives call.fresh = some rows) :
    ∀ row ∈ rows, ∃ code ∈ call.fresh.recoveryCodes, code.1 = row.1 := by
  intro row member
  obtain ⟨code, isDrawn, value⟩ :=
    Text.exists_of_forall₂ (Text.mapM_eq_some.mp hashed) member
  obtain ⟨codeHash, -, rfl⟩ := Option.map_eq_some_iff.mp value
  exact ⟨code, isDrawn, rfl⟩

theorem issues_replaceRecoveryCodes (renews : Renews call.request) (userId : Uuid) (now : Nat)
    (hashed : recoveryCodeRows primitives call.fresh = some rows) :
    Issues (Tame primitives call) (replaceRecoveryCodes userId rows now) :=
  ⟨trivial, fun _ => issues_addRecoveryCodes renews userId now (drawn_of_recoveryCodeRows hashed)⟩

theorem issues_confirmEnrollment (completion : IsCompletion call) (userId : Uuid)
    (factor : MfaFactor) (value : Text) (now : Nat) :
    Issues (Tame primitives call)
      (confirmEnrollment primitives call.fresh userId factor value now) := by
  unfold confirmEnrollment
  split
  · trivial
  · split
    · trivial
    · split
      · trivial
      · trivial
      · simp only [execute_bind, issues_run]
        refine ⟨completion, fun _ => ⟨trivial, fun _ =>
          ⟨mfaValue_of_completion completion, fun accepted => ?_⟩⟩⟩
        split
        · trivial
        · split
          · trivial
          · rename_i hashed
            exact issues_replaceRecoveryCodes (.inl completion) userId now hashed

theorem issues_completeChallenge (completion : IsCompletion call) (user : User)
    (challenge : AuthChallenge) (recoveryCodes : List String) (now : Nat) :
    Issues (Tame primitives call)
      (completeChallenge primitives call.settings call.fresh user challenge recoveryCodes now) := by
  simp only [completeChallenge, execute_bind, issues_run]
  refine ⟨trivial, fun consumed => ?_⟩
  split
  · trivial
  · exact ⟨trivial, fun _ =>
      issues_bind (issues_issue user true true fun _ => completion) fun _ => trivial⟩

theorem issues_completeMfa (completion : IsCompletion call) (challengeToken : String) (value : Text)
    (expectedPurpose : Option ChallengePurpose) :
    Issues (Tame primitives call)
      (completeMfa primitives call.settings call.fresh challengeToken value expectedPurpose) := by
  unfold completeMfa
  split
  · trivial
  · simp only [now_bind, execute_bind, issues_clock, issues_run]
    refine fun now => ⟨trivial, fun rows => ?_⟩
    split
    · trivial
    · split
      · trivial
      · simp only [getUser_bind, getMfaFactor_bind, issues_run]
        refine ⟨trivial, fun userRows => ⟨trivial, fun factorRows => ?_⟩⟩
        split
        · split
          · exact issues_bind (issues_confirmEnrollment completion _ _ _ _) fun _ =>
              issues_completeChallenge completion _ _ _ _
          · have presented := mfaValue_of_completion completion
            refine issues_bind (issues_verifyMfaValue presented _ _ _) fun verified => ?_
            split
            · trivial
            · exact issues_completeChallenge completion _ _ _ _
        · trivial

theorem issues_beginMfaEnrollment (quiet : mfaValue? call.request = none)
    (principal : SessionPrincipal) :
    Issues (Tame primitives call)
      (beginMfaEnrollment primitives call.settings call.fresh principal) := by
  unfold beginMfaEnrollment
  split
  · trivial
  · simp only [getUser_bind, issues_run]
    refine ⟨trivial, fun rows => ?_⟩
    split
    · trivial
    · exact issues_issueChallenge quiet _ _ _

theorem issues_elevate (principal : SessionPrincipal) :
    Issues (Tame primitives call) (elevate principal) := by
  simp only [elevate, now_bind, execute_bind, issues_clock, issues_run]
  refine fun now => ⟨trivial, fun _ => ⟨trivial, fun rows => ?_⟩⟩
  split <;> trivial

theorem issues_reauthenticate {mfaValue : Option Text}
    (presented : mfaValue? call.request = mfaValue) (principal : SessionPrincipal)
    (password : Text) :
    Issues (Tame primitives call)
      (reauthenticate primitives call.settings principal password mfaValue) := by
  simp only [reauthenticate, findUserByUsername_bind, getMfaFactor_bind, issues_run]
  refine ⟨trivial, fun rows => ?_⟩
  split
  · trivial
  · split
    · exact issues_elevate principal
    · refine ⟨trivial, fun factorRows => ?_⟩
      dsimp only
      split
      · split
        · trivial
        · refine issues_bind (issues_verifyMfaValue (by simp [presented]) _ _ _) fun verified => ?_
          split
          · trivial
          · exact issues_elevate principal
      · trivial

theorem issues_requireRecentReauthentication (principal : SessionPrincipal) :
    Issues (Tame primitives call) (requireRecentReauthentication principal) := by
  simp only [requireRecentReauthentication, now_bind, issues_clock]
  intro now
  split <;> trivial

theorem issues_regenerateRecoveryCodes (renews : Renews call.request) (actor : SessionPrincipal) :
    Issues (Tame primitives call)
      (regenerateRecoveryCodes primitives call.settings call.fresh actor) := by
  unfold regenerateRecoveryCodes
  split
  · trivial
  · refine issues_bind (issues_requireRecentReauthentication actor) fun _ => ?_
    simp only [now_bind, issues_clock]
    intro now
    split
    · trivial
    · rename_i hashed
      simp only [getMfaFactor_bind, issues_run]
      refine ⟨trivial, fun rows => ?_⟩
      split
      · trivial
      · exact issues_bind (issues_replaceRecoveryCodes renews _ _ hashed) fun _ => trivial

variable (actor : SessionPrincipal) (userId : Uuid) (username : String)

theorem issues_setPassword (passwordHash : String) (now : Nat) :
    Issues (Tame primitives call) (setPassword userId passwordHash now) :=
  ⟨trivial, fun _ => ⟨trivial, fun _ => trivial⟩⟩

theorem issues_storePassword (newPassword : Text) (now : Nat) :
    Issues (Tame primitives call) (storePassword primitives call.fresh userId newPassword now) :=
  issues_bind (issues_ofExcept _) fun _ => issues_setPassword _ _ _

theorem issues_changePassword {mfaValue : Option Text}
    (presented : mfaValue? call.request = mfaValue) (actor : SessionPrincipal)
    (currentPassword newPassword : Text) :
    Issues (Tame primitives call)
      (changePassword primitives call.settings call.fresh actor currentPassword newPassword
        mfaValue) := by
  refine issues_bind (issues_ofExcept _) fun _ => ?_
  simp only [now_bind, findUserByUsername_bind, getMfaFactor_bind, issues_clock, issues_run]
  refine fun now => ⟨trivial, fun rows => ?_⟩
  split
  · trivial
  · split
    · trivial
    · refine ⟨trivial, fun factorRows => ?_⟩
      dsimp only
      split
      · exact issues_storePassword _ _ _
      · split
        · exact issues_storePassword _ _ _
        · split
          · trivial
          · refine issues_bind (issues_verifyMfaValue (by simp [presented]) _ _ _) fun verified => ?_
            split
            · trivial
            · exact issues_storePassword _ _ _

theorem issues_activate (quiet : mfaValue? call.request = none) (activationCode : String)
    (password : Text) :
    Issues (Permitted primitives call)
      (activate primitives call.settings call.fresh activationCode password) := by
  refine issues_bind (issues_ofExcept _) fun _ => ?_
  refine issues_bind (issues_ofExcept _) fun passwordHash => ?_
  simp only [now_bind, execute_bind, issues_clock, issues_run]
  refine fun now => ⟨trivial, fun granted => ?_⟩
  split
  · trivial
  · refine ⟨trivial, fun activated => ?_⟩
    dsimp only
    split
    · trivial
    · split
      · exact issues_bind (permitted_of_tame (issues_issueChallenge quiet _ _ _)) fun _ => trivial
      · exact issues_bind (permitted_of_tame (issues_issue _ _ _ (by simp))) fun _ => trivial

theorem issues_requireManager :
    Issues (Tame primitives call) (requireManager actor) := by
  unfold requireManager
  split
  · trivial
  · exact issues_requireRecentReauthentication actor

theorem issues_grantActivation (userId activationTokenId : Uuid)
    (activationCode : String) (now : Nat) :
    Issues (Permitted primitives call)
      (grantActivation primitives actor userId activationTokenId activationCode now) :=
  ⟨trivial, fun _ => trivial⟩

theorem issues_bootstrap (password : Text) :
    Issues (Permitted primitives call)
      (bootstrap primitives call.fresh userId username password) := by
  refine issues_bind (issues_ofExcept _) fun _ => issues_bind (issues_ofExcept _) fun _ => ?_
  refine issues_bind (issues_ofExcept _) fun passwordHash => ?_
  simp only [now_bind, execute_bind, issues_clock, issues_run]
  refine fun now => ⟨trivial, fun users => ?_⟩
  split
  · trivial
  · exact ⟨trivial, fun _ => trivial⟩

theorem issues_createUser (role : UserRole)
    (userId activationTokenId : Uuid) (activationCode : String) :
    Issues (Permitted primitives call)
      (createUser primitives actor username role userId activationTokenId activationCode) := by
  refine issues_bind (permitted_of_tame (issues_requireManager actor)) fun _ =>
    issues_bind (issues_ofExcept _) fun _ => ?_
  exact fun now => ⟨trivial, fun _ => issues_grantActivation _ _ _ _ _⟩

theorem issues_reissueActivation (userId activationTokenId : Uuid) (activationCode : String) :
    Issues (Permitted primitives call)
      (reissueActivation primitives actor userId activationTokenId activationCode) := by
  refine issues_bind (permitted_of_tame (issues_requireManager actor)) fun _ => ?_
  simp only [now_bind, getUser_bind, issues_clock, issues_run]
  refine fun now => ⟨trivial, fun rows => ?_⟩
  split
  · trivial
  · split
    · trivial
    · exact ⟨trivial, fun _ => issues_grantActivation _ _ _ _ _⟩

theorem issues_updateUser (role : UserRole) (status : UserStatus) (expectedVersion : Nat) :
    Issues (Permitted primitives call)
      (updateUser actor userId role status expectedVersion) := by
  refine issues_bind (permitted_of_tame (issues_requireManager actor)) fun _ => ?_
  simp only [now_bind, getUser_bind, issues_clock, issues_run]
  refine fun now => ⟨trivial, fun rows => ?_⟩
  split
  · trivial
  · split
    · trivial
    · split
      · trivial
      · split
        · trivial
        · simp only [execute_bind, issues_run]
          refine ⟨trivial, fun updated => ?_⟩
          split
          · trivial
          · exact ⟨trivial, fun _ => trivial⟩

theorem issues_resetMfa (quiet : mfaValue? call.request = none) (userId : Uuid) (now : Nat) :
    Issues (Tame primitives call) (resetMfa userId now) :=
  ⟨trivial, fun _ => ⟨quiet, fun _ => ⟨trivial, fun _ => ⟨trivial, fun _ => trivial⟩⟩⟩⟩

theorem issues_resetUserMfa (quiet : mfaValue? call.request = none) (actor : SessionPrincipal)
    (userId : Uuid) : Issues (Tame primitives call) (resetUserMfa actor userId) := by
  refine issues_bind (issues_requireManager actor) fun _ => ?_
  split
  · trivial
  · simp only [now_bind, getUser_bind, issues_clock, issues_run]
    refine fun now => ⟨trivial, fun rows => ?_⟩
    split
    · trivial
    · exact issues_resetMfa quiet userId now

theorem issues_soleOwner :
    Issues (Tame primitives call) (soleOwner username) := by
  simp only [soleOwner, findUserByUsername_bind, issues_run]
  refine ⟨trivial, fun rows => ?_⟩
  split
  · trivial
  · split
    · trivial
    · simp only [execute_bind, issues_run]
      refine ⟨trivial, fun owners => ?_⟩
      split <;> trivial

theorem issues_breakGlassResetMfa (quiet : mfaValue? call.request = none)
    (username confirmation : String) :
    Issues (Tame primitives call)
      (breakGlassResetMfa primitives username confirmation) := by
  dsimp only [breakGlassResetMfa]
  split
  · trivial
  · simp only [now_bind, issues_clock]
    exact fun now => issues_bind (issues_soleOwner _) fun user => issues_resetMfa quiet _ now

theorem issues_breakGlassResetPassword (username confirmation : String) (newPassword : Text) :
    Issues (Tame primitives call)
      (breakGlassResetPassword primitives call.fresh username confirmation newPassword) := by
  refine issues_bind (issues_ofExcept _) fun _ => ?_
  dsimp only
  split
  · trivial
  · refine issues_bind (issues_ofExcept _) fun _ => ?_
    refine issues_bind (issues_ofExcept _) fun passwordHash => ?_
    simp only [now_bind, issues_clock]
    exact fun now => issues_bind (issues_soleOwner _) fun user => issues_setPassword _ _ now

/-- **A call that manages no users** executes none of the reserved statements. -/
theorem tame_program (primitives : Primitives) (call : AuthCall)
    (other : managesUsers call.request = false) :
    Issues (Tame primitives call) (call.program primitives) := by
  unfold AuthCall.program
  cases request : call.request with
  | login username password bucket =>
      exact issues_bind (issues_login (by rw [request]; rfl) username password bucket) fun _ => trivial
  | completeMfa challengeToken value expectedPurpose =>
      have completion : IsCompletion call := ⟨challengeToken, value, expectedPurpose, request⟩
      exact issues_bind (issues_completeMfa completion challengeToken value expectedPurpose)
        fun _ => trivial
  | beginMfaEnrollment principal =>
      exact issues_bind (issues_beginMfaEnrollment (by rw [request]; rfl) principal) fun _ => trivial
  | reauthenticate principal password mfaValue =>
      exact issues_bind (issues_reauthenticate (by rw [request]; rfl) principal password) fun _ => trivial
  | regenerateRecoveryCodes actor =>
      exact issues_bind (issues_regenerateRecoveryCodes (.inr ⟨actor, request⟩) actor) fun _ => trivial
  | changePassword actor currentPassword newPassword mfaValue =>
      exact issues_changePassword (by rw [request]; rfl) actor currentPassword newPassword
  | resetUserMfa actor userId => exact issues_resetUserMfa (by rw [request]; rfl) actor userId
  | breakGlassResetMfa username confirmation =>
      exact issues_breakGlassResetMfa (by rw [request]; rfl) username confirmation
  | breakGlassResetPassword username confirmation newPassword =>
      exact issues_breakGlassResetPassword username confirmation newPassword
  | logout principal => exact ⟨trivial, fun _ => trivial⟩
  | _ => simp [request, managesUsers] at other

/-- **Every statement of a call is permitted.** -/
theorem permitted_program (primitives : Primitives) (call : AuthCall) :
    Issues (Permitted primitives call) (call.program primitives) := by
  by_cases other : managesUsers call.request = false
  · exact permitted_of_tame (tame_program primitives call other)
  · unfold AuthCall.program
    cases request : call.request with
    | bootstrap userId username password =>
        exact issues_bind (issues_bootstrap userId username password) fun _ => trivial
    | activate activationCode password =>
        exact issues_bind (issues_activate (by rw [request]; rfl) activationCode password) fun _ => trivial
    | createUser actor username role userId activationTokenId activationCode =>
        exact issues_createUser actor username role userId activationTokenId activationCode
    | reissueActivation actor userId activationTokenId activationCode =>
        exact issues_reissueActivation actor userId activationTokenId activationCode
    | updateUser actor userId role status expectedVersion =>
        exact issues_bind (issues_updateUser actor userId role status expectedVersion)
          fun _ => trivial
    | _ => simp [request, managesUsers] at other

end Issues

/-! ## In every reachable world -/

variable (primitives : Primitives)

/-- Rows stem from committed statements. -/
theorem sourced_inductive :
    (accountSystem primitives).Inductive fun world => world.db.Sourced Source :=
  inductive_onDb
    ⟨fun k row shown => by cases k <;> simp [RowStore.lookup, AuthStore.lookup, AuthStore.empty] at shown,
      fun _ _ found => by simp at found⟩
    fun _ _ sourced effect => sourced.effect (keeps_source primitives) effect

/-- What a call has executed, and what it executes next, is permitted. -/
def PermittedAt (call : AuthCall) (log : List AuthEvent)
    (program : AuthProgram Unit) : Prop :=
  (∀ statement rows seen, .ran statement rows seen ∈ log → Permitted primitives call statement) ∧
    ∀ statement ∈ program.next?, Permitted primitives call statement

theorem permitted_inductive :
    (accountSystem primitives).Inductive fun world =>
      world.db.AtPoints (fun _ _ => True) (PermittedAt primitives) :=
  inductive_onDb (fun _ _ found => by simp at found) fun _ _ holds effect => by
    refine holds.effect (fun _ _ _ _ _ _ => trivial) (fun call => ?_) effect
    exact (permitted_program primitives call).everywhere fun _ _ _ ran => by cases ran

theorem permitted_of_ran {primitives : Primitives} {world : AccountWorld}
    (reachable : (accountSystem primitives).Reachable world) {id : Nat} {txn : AuthTxn}
    (found : world.db.txns[id]? = some txn) {statement : AuthStatement} {rows : List AuthRow}
    {seen : Nat} (ran : .ran statement rows seen ∈ txn.log) :
    Permitted primitives txn.call statement :=
  (((permitted_inductive primitives).of_reachable reachable) id txn found).here.1 statement rows
    seen ran

theorem permitted_of_next {primitives : Primitives} {world : AccountWorld}
    (reachable : (accountSystem primitives).Reachable world) {id : Nat} {txn : AuthTxn}
    (found : world.db.txns[id]? = some txn) {statement : AuthStatement}
    (next : txn.program.next? = some statement) : Permitted primitives txn.call statement :=
  (((permitted_inductive primitives).of_reachable reachable) id txn found).here.2 statement next

end OpsComposer.Accounts
