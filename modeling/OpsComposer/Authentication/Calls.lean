import OpsComposer.Authentication.Effect

/-!
# The effect of every call

With TOTP enabled, a call of the service is one of nine: it changes nothing that
a sign-in depends on, adds a user, starts an enrollment, activates a user, issues
a session on a password alone, issues one on a second factor, gives a user another
role or status, or resets a user.
-/

set_option autoImplicit false

namespace OpsComposer.Authentication

open Domain Foundations Repositories Services

/-- What a call does to accounts, factors and sessions. -/
inductive AuthEffect (primitives : Primitives) (world : AuthWorld) :
    AuthAction → AuthStore → Prop where
  | quiet {action : AuthAction} {store : AuthStore} (same : Quiet world.store store) :
      AuthEffect primitives world action store
  | adds {action : AuthAction} {store : AuthStore} {userId : Uuid} {added : Account}
      (absent : account world.store userId = none)
      (changes : Changes world.store store userId (some added) (confirmation world.store userId)
        Silent) : AuthEffect primitives world action store
  /-- `login` and its enrollment challenge. -/
  | enrolls {action : AuthAction} {store : AuthStore} {userId : Uuid} {before : Account}
      (standing : account world.store userId = some before) (active : before.status = .active)
      (due : before.enrollmentRequired = true ∨ before.role.mfaRequired = true)
      (changes : Changes world.store store userId (some before) (some false) Silent) :
      AuthEffect primitives world action store
  | reenrolls {request : Nat} {fresh : Fresh} {store : AuthStore} {principal : SessionPrincipal}
      {before : Account} (resolved : world.requests[request]? = some principal)
      (standing : account world.store principal.userId = some before)
      (changes : Changes world.store store principal.userId (some before) (some false) Silent) :
      AuthEffect primitives world (.beginMfaEnrollment request fresh) store
  | activates {action : AuthAction} {store : AuthStore} {userId : Uuid} {before : Account}
      {confirmation' : Option Bool} (standing : account world.store userId = some before)
      (pending : before.status = .pendingActivation)
      (changes : Changes world.store store userId
        (some { role := before.role
                status := .active
                enrollmentRequired := before.role.mfaRequired })
        confirmation' fun session => session.userId = userId) :
      AuthEffect primitives world action store
  /-- A session on a password alone. -/
  | signsIn {action : AuthAction} {store : AuthStore} {userId : Uuid} {before : Account}
      (standing : account world.store userId = some before)
      (notDue : before.enrollmentRequired = false) (notRequired : before.role.mfaRequired = false)
      (disabled : confirmation world.store userId ≠ some true)
      (changes : Changes world.store store userId (some before) (confirmation world.store userId)
        fun session => session.userId = userId) : AuthEffect primitives world action store
  /-- A session on a second factor. -/
  | verifies {challengeToken : String} {value : Text} {purpose : Option ChallengePurpose} {fresh : Fresh}
      {store : AuthStore} {userId : Uuid} {before after : Account} {confirmation' : Option Bool}
      (standing : account world.store userId = some before)
      (held : confirmation world.store userId ≠ none)
      (verified : VerifiesMfa primitives world.store userId value world.clock)
      (moved : (after = before ∧ confirmation' = confirmation world.store userId) ∨
        (after = { before with enrollmentRequired := false } ∧ confirmation' = some true))
      (changes : Changes world.store store userId (some after) confirmation' fun session =>
        session.userId = userId ∧ session.mfaVerifiedAt = some world.clock) :
      AuthEffect primitives world (.completeMfa challengeToken value purpose fresh) store
  | updates {request : Nat} {userId : Uuid} {role : UserRole} {status : UserStatus}
      {version : Nat} {store : AuthStore} {actor : SessionPrincipal} {before : Account}
      (resolved : world.requests[request]? = some actor)
      (accepted : (AuthService.updateUser world.store actor userId role status version
        world.clock).isOk = true)
      (standing : account world.store userId = some before)
      (settled : before.status ≠ .pendingActivation → status ≠ .pendingActivation)
      (changes : Changes world.store store userId
        (some { role := role
                status := status
                enrollmentRequired :=
                  if role.mfaRequired = true ∧ confirmation world.store userId ≠ some true then true
                  else before.enrollmentRequired })
        (confirmation world.store userId) Silent) :
      AuthEffect primitives world (.updateUser request userId role status version) store
  | resets {action : AuthAction} {store : AuthStore} {userId : Uuid} {before : Account}
      (standing : account world.store userId = some before)
      (changes : Changes world.store store userId
        (some { before with enrollmentRequired := true }) none Silent) :
      AuthEffect primitives world action store

/-! ## Signing in -/

theorem map_eq_ok {ε α β : Type} {f : α → β} {answer : Except ε α} {b : β} :
    answer.map f = .ok b ↔ ∃ a, answer = .ok a ∧ f a = b := by
  cases answer <;> simp [Except.map]

section Calls

variable {primitives : Primitives} {settings : AuthSettings} {world : AuthWorld}
  {store stored : AuthStore} {user : User} {fresh : Fresh}

theorem account_of_found (found : store.users.lookup user.userId = some user) :
    account store user.userId = some (accountOf user) := by
  rw [account, found, Option.map_some]

variable {action : AuthAction} {result : AuthResult} {now : Nat} {actor : SessionPrincipal}
  {activationCode username : String} {password : Text} {role : UserRole}
  {activationTokenId userId : Uuid}

theorem lookup_of_findUserByUsername {lower : String → String}
    (found : AuthRepository.findUserByUsername lower store username = some user) :
    store.users.lookup user.userId = some user :=
  Table.lookup_of_mem (List.mem_of_find?_eq_some found)

/-- With TOTP enabled, `login` with the right password ends in one of three ways. -/
theorem effect_of_signIn
    (totp : settings.totpEnabled = true) (quiet : Quiet world.store store)
    (standing : account world.store user.userId = some (accountOf user))
    (active : user.status = .active)
    (done : AuthService.signIn primitives settings store user fresh world.clock =
      .ok (result, stored)) : AuthEffect primitives world action stored := by
  have standing' : account store user.userId = some (accountOf user) :=
    (quiet.account user.userId).trans standing
  have confirmed' := quiet.confirmation user.userId
  have before := quiet.changes user.userId
  unfold AuthService.signIn at done
  simp only [totp, Bool.true_eq_false, if_false] at done
  split at done
  next due =>
    obtain ⟨challenge, issued, same⟩ := map_eq_ok.mp done
    cases same
    have changes := before.trans (changes_issueChallenge issued)
    rw [standing'] at changes
    refine .enrolls standing active ?_ changes
    simp only [Bool.or_eq_true, Bool.and_eq_true] at due
    exact due.imp id And.left
  next notDue =>
    simp only [Bool.or_eq_true, not_or, Bool.not_eq_true] at notDue
    split at done
    next =>
      obtain ⟨challenge, issued, same⟩ := map_eq_ok.mp done
      cases same
      exact .quiet (quiet.trans (quiet_issueChallenge issued))
    next disabled =>
      obtain ⟨session, issued, same⟩ := map_eq_ok.mp done
      cases same
      have off : confirmation world.store user.userId ≠ some true := by
        rw [← confirmed']
        exact fun on => disabled (factorEnabled_iff.mpr on)
      have notRequired : user.role.mfaRequired = false := by
        have factorOff := Bool.eq_false_iff.mpr disabled
        simpa [factorOff] using notDue.2
      have changes := before.trans (changes_issue issued)
      rw [standing', confirmed'] at changes
      exact .signsIn standing notDue.1 notRequired off
        { changes with issued := fun session isNew => (changes.issued session isNew).1 }

theorem effect_of_loginUser {bucket : RateLimitKey} (totp : settings.totpEnabled = true)
    (quiet : Quiet world.store store)
    (done : AuthService.loginUser primitives settings store username password bucket fresh
      world.clock = .ok (result, stored)) : AuthEffect primitives world action stored := by
  unfold AuthService.loginUser at done
  split at done
  · cases done
  next user verification checked =>
    simp only at done
    split at done
    · cases done
    next active =>
      split at done
      · cases done
      next rehashed isRehashed =>
        have found := AuthService.user_of_checkPassword checked
        have standing := account_of_found (lookup_of_findUserByUsername found)
        rw [quiet.account] at standing
        refine effect_of_signIn totp ?_ standing (not_not.mp active) done
        have rehash : Quiet store rehashed := by
          split at isRehashed
          · obtain ⟨passwordHash, -, rfl⟩ := map_eq_ok.mp isRehashed
            exact quiet_updatePasswordHash store user.userId world.clock _
          · cases isRehashed
            exact .refl store
        exact (quiet.trans rehash).trans (.of_tables rfl rfl rfl)

theorem quiet_consumeRateLimit {spec : AuthService.RateLimitSpec}
    {answer : Except AuthError RateLimitKey}
    (consumed : AuthService.consumeRateLimit primitives settings store spec now =
      (answer, stored)) : Quiet store stored := by
  unfold AuthService.consumeRateLimit at consumed
  simp only at consumed
  split at consumed <;>
  · cases consumed
    exact .of_tables rfl rfl rfl

theorem effect_of_login {clientKey : String} (totp : settings.totpEnabled = true) :
    AuthEffect primitives world action (AuthService.login primitives settings world.store username
      password clientKey fresh world.clock).2 := by
  unfold AuthService.login
  simp only
  split
  next first => exact .quiet (quiet_consumeRateLimit first)
  next first =>
    split
    next second =>
      exact .quiet ((quiet_consumeRateLimit first).trans (quiet_consumeRateLimit second))
    next second =>
      have quiet := (quiet_consumeRateLimit first).trans (quiet_consumeRateLimit second)
      split
      · exact .quiet quiet
      next done => exact effect_of_loginUser totp quiet done

/-! ## Second factors -/

theorem changes_completeChallenge {challenge : AuthChallenge} {codes : List String}
    {completed : AuthService.CompletedMfa}
    (done : AuthService.completeChallenge primitives settings store user challenge codes fresh now =
      .ok (completed, stored)) :
    Changes store stored user.userId (account store user.userId) (confirmation store user.userId)
      fun session => session.userId = user.userId ∧ session.mfaVerifiedAt = some now := by
  unfold AuthService.completeChallenge at done
  simp only at done
  split at done
  · cases done
  · obtain ⟨session, issued, same⟩ := map_eq_ok.mp done
    cases same
    have marked : Quiet store (AuthRepository.markChallengeConsumed store challenge.challengeId
        now).2 := .of_tables rfl rfl rfl
    have quiet := marked.trans (quiet_deleteUserSessions _ user.userId)
    have changes := (quiet.changes user.userId).trans (changes_issue issued)
    rw [quiet.account, quiet.confirmation] at changes
    exact changes

/-- A step that the just confirmed factor accepts is newer than its last one. -/
theorem newer_of_acceptTotpStep {factor : MfaFactor} {step : Nat}
    (found : store.factors.lookup userId = some factor)
    (accepted : (AuthRepository.acceptTotpStep (AuthRepository.confirmMfaFactor store userId now)
      userId step now).1 = true) : ∀ last ∈ factor.lastAcceptedStep, last < step := by
  obtain ⟨confirmed, present, accepts⟩ := of_decide_eq_true accepted
  have rewritten : some confirmed = some { factor with confirmedAt := some now, updatedAt := now } := by
    rw [← show _ = some confirmed from present]
    simp only [AuthRepository.confirmMfaFactor, Table.lookup_update_at, if_true, found,
      Option.map_some]
  cases rewritten
  exact accepts.2.2

theorem changes_confirmEnrollment {factor : MfaFactor} {value : Text}
    (found : AuthRepository.getMfaFactor store userId = some factor)
    (done : AuthService.confirmEnrollment primitives store userId factor value fresh now =
      .ok stored) :
    VerifiesMfa primitives store userId value now ∧
      Changes store stored userId
        ((account store userId).map fun before => { before with enrollmentRequired := false })
        (some true) Silent := by
  unfold AuthService.confirmEnrollment at done
  split at done
  · cases done
  · split at done
    · cases done
    next secret opened =>
      split at done
      · cases done
      · cases done
      next step isStep =>
        simp only at done
        split at done
        · cases done
        next accepted =>
          split at done
          · cases done
          · split at done
            · cases done
            next replaced =>
              cases done
              obtain ⟨isCode, later, earlier, _⟩ := matchTotpStep_spec isStep
              have stands : store.factors.lookup userId = some factor := found
              have confirms : Changes store (AuthRepository.confirmMfaFactor store userId now)
                  userId _ ((confirmation store userId).map fun _ => true) Silent :=
                changes_confirmMfaFactor
              rw [confirmation, stands, Option.map_some, Option.map_some] at confirms
              refine ⟨.inl ⟨factor, found, secret, step, opened, isCode, later, earlier, ?_⟩, ?_⟩
              · exact newer_of_acceptTotpStep stands (Bool.eq_true_of_not_eq_false accepted)
              · exact (confirms.quietly (quiet_acceptTotpStep _ userId now step)).quietly
                  (quiet_replaceRecoveryCodes replaced)

theorem effect_of_completeMfa {challengeToken : String} {value : Text}
    {purpose : Option ChallengePurpose} {completed : AuthService.CompletedMfa}
    (done : AuthService.completeMfa primitives settings world.store challengeToken value purpose
      fresh world.clock = .ok (completed, stored)) :
    AuthEffect primitives world (.completeMfa challengeToken value purpose fresh) stored := by
  unfold AuthService.completeMfa at done
  split at done
  · cases done
  · split at done
    · cases done
    next challenge _ =>
      split at done
      · cases done
      · split at done
        next user factor found held =>
          have named : user.userId = challenge.userId := Table.key_of_lookup found
          have owner : factor.userId = challenge.userId := Table.key_of_lookup held
          rw [← named] at found held
          have standing := account_of_found found
          have holds : confirmation world.store user.userId ≠ none := by
            rw [confirmation, show world.store.factors.lookup user.userId = some factor from held]
            exact Option.some_ne_none _
          cases isPurpose : challenge.purpose with
          | mfaEnrollment =>
              simp only [isPurpose] at done
              split at done
              · cases done
              next confirmed =>
                obtain ⟨verified, confirms⟩ := changes_confirmEnrollment held confirmed
                have changes := changes_completeChallenge done
                rw [confirms.account, confirms.confirmation] at changes
                rw [standing, Option.map_some] at confirms changes
                exact .verifies standing holds verified (.inr ⟨rfl, rfl⟩) (confirms.trans changes)
          | loginMfa =>
              simp only [isPurpose] at done
              split at done
              · cases done
              next checked =>
                split at done
                · cases done
                next isVerified =>
                  rw [named, ← owner] at held
                  obtain ⟨quiet, verified⟩ := verifyMfaValue_spec held checked
                  have changes := changes_completeChallenge done
                  rw [quiet.account, quiet.confirmation, standing] at changes
                  have before := quiet.changes user.userId
                  rw [standing] at before
                  rw [owner, ← named] at verified
                  exact .verifies standing holds
                    (verified (Bool.eq_true_of_not_eq_false isVerified)) (.inl ⟨rfl, rfl⟩)
                    (before.trans changes)
        · cases done

theorem effect_of_beginMfaEnrollment {request : Nat} {principal : SessionPrincipal}
    {issued : IssuedChallenge} (resolved : world.requests[request]? = some principal)
    (done : AuthService.beginMfaEnrollment primitives settings world.store principal fresh
      world.clock = .ok (issued, stored)) :
    AuthEffect primitives world (.beginMfaEnrollment request fresh) stored := by
  unfold AuthService.beginMfaEnrollment at done
  split at done
  · cases done
  · split at done
    · cases done
    next user found =>
      have named : user.userId = principal.userId := Table.key_of_lookup found
      have changes := changes_issueChallenge done
      simp only [named] at changes
      rw [← named] at found
      have standing := account_of_found found
      rw [named] at standing
      rw [standing] at changes
      exact .reenrolls resolved standing changes

/-! ## Activation -/

theorem activateUser_spec {passwordHash : String} {required : Bool}
    (done : AuthRepository.activateUser store userId passwordHash required now =
      some (user, stored)) :
    ∃ before, account store userId = some before ∧ before.status = .pendingActivation ∧
      user.userId = userId ∧ user.role = before.role ∧
      Changes store stored userId
        (some { role := before.role, status := .active, enrollmentRequired := required })
        (confirmation store userId) Silent := by
  unfold AuthRepository.activateUser at done
  split at done
  · cases done
  next old found =>
    split at done
    next pending =>
      cases done
      have named : old.userId = userId := Table.key_of_lookup found
      exact ⟨accountOf old, by rw [account, found, Option.map_some], pending, named, rfl,
        changes_users _ found⟩
    · cases done

theorem effect_of_activate (totp : settings.totpEnabled = true)
    (done : AuthService.activate primitives settings world.store activationCode password fresh
      world.clock = .ok (result, stored)) : AuthEffect primitives world action stored := by
  unfold AuthService.activate at done
  split at done
  · cases done
  · split at done
    · cases done
    next granted consumed isGranted =>
      obtain ⟨found, _, quiet⟩ := consumeActivationToken_spec isGranted
      split at done
      · cases done
      next user activated isActivated =>
        obtain ⟨before, standing, pending, named, role, changes⟩ := activateUser_spec isActivated
        rw [quiet.account] at standing
        have sameRole : granted.role = before.role := by
          have present := account_of_found found
          rw [present] at standing
          cases standing
          rfl
        rw [sameRole] at changes
        have activates := (quiet.changes granted.userId).trans changes
        simp only [totp, Bool.and_true] at done
        split at done
        · obtain ⟨challenge, issued, same⟩ := map_eq_ok.mp done
          cases same
          have enrolls := changes_issueChallenge issued
          rw [named, changes.account] at enrolls
          have all := activates.trans enrolls
          exact .activates standing pending { all with issued := fun session isNew =>
            (all.issued session isNew).elim }
        · obtain ⟨session, issued, same⟩ := map_eq_ok.mp done
          cases same
          have issues := changes_issue issued
          rw [named, changes.account] at issues
          have all := activates.trans issues
          exact .activates standing pending { all with issued := fun session isNew =>
            (all.issued session isNew).1 }

/-! ## Managing users -/

theorem quiet_grantActivation
    (done : AuthService.grantActivation primitives store actor userId activationTokenId
      activationCode now = .ok stored) : Quiet store stored := by
  unfold AuthService.grantActivation at done
  split at done
  · cases done
  next added =>
    cases done
    exact quiet_addActivationToken added

theorem effect_of_bootstrap
    (done : AuthService.bootstrap primitives world.store userId username password fresh
      world.clock = .ok (user, stored)) : AuthEffect primitives world action stored := by
  unfold AuthService.bootstrap at done
  simp only at done
  split at done
  · cases done
  · cases done
  · split at done
    · cases done
    · split at done
      · cases done
      next added =>
        cases done
        obtain ⟨absent, changes⟩ := changes_addUser added
        exact .adds absent changes

theorem effect_of_createUser
    (done : AuthService.createUser primitives world.store actor username role userId
      activationTokenId activationCode world.clock = .ok stored) :
    AuthEffect primitives world action stored := by
  unfold AuthService.createUser at done
  split at done
  · cases done
  · simp only at done
    split at done
    · cases done
    · split at done
      · cases done
      next added =>
        obtain ⟨absent, changes⟩ := changes_addUser added
        exact .adds absent (changes.quietly (quiet_grantActivation done))

theorem quiet_reissueActivation
    (done : AuthService.reissueActivation primitives store actor userId activationTokenId
      activationCode now = .ok stored) : Quiet store stored := by
  unfold AuthService.reissueActivation at done
  split at done
  · cases done
  · split at done
    · cases done
    · split at done
      · cases done
      · have invalidated : Quiet store (AuthRepository.invalidateActivationTokens store userId
            now) := .of_tables rfl rfl rfl
        exact invalidated.trans (quiet_grantActivation done)

theorem updateUser_spec {status : UserStatus}
    {expectedVersion : Nat}
    (done : AuthRepository.updateUser store userId role status expectedVersion now =
      some (user, stored)) :
    ∃ before, account store userId = some before ∧
      Changes store stored userId
        (some { role := role
                status := status
                enrollmentRequired :=
                  if role.mfaRequired = true ∧ confirmation store userId ≠ some true then true
                  else before.enrollmentRequired })
        (confirmation store userId) Silent := by
  unfold AuthRepository.updateUser at done
  split at done
  · cases done
  next old found =>
    split at done
    · cases done
      have named : old.userId = userId := Table.key_of_lookup found
      refine ⟨accountOf old, by rw [account, found, Option.map_some], ?_⟩
      have changes := changes_users (f := AuthRepository.updatedUser store role status now)
        (AuthRepository.updatedUser_userId store role status now) found
      have enabled : AuthRepository.factorEnabled store userId = false ↔
          confirmation store userId ≠ some true := by
        rw [← Bool.not_eq_true, factorEnabled_iff]
      simp only [accountOf, AuthRepository.updatedUser, named, enabled] at changes
      exact changes
    · cases done

theorem effect_of_updateUser {request : Nat} {status : UserStatus} {expectedVersion : Nat}
    (resolved : world.requests[request]? = some actor)
    (done : AuthService.updateUser world.store actor userId role status expectedVersion
      world.clock = .ok (user, stored)) :
    AuthEffect primitives world (.updateUser request userId role status expectedVersion) stored := by
  have accepted : (AuthService.updateUser world.store actor userId role status expectedVersion
      world.clock).isOk = true := by
    rw [done]
    rfl
  unfold AuthService.updateUser at done
  split at done
  · cases done
  · split at done
    · cases done
    next old found =>
      split at done
      · cases done
      · split at done
        · cases done
        next notBack =>
          split at done
          · cases done
          · split at done
            · cases done
            next updated isUpdated =>
              split at done
              · cases done
              · cases done
                obtain ⟨before, standing, changes⟩ := updateUser_spec isUpdated
                have same : before = accountOf old := by
                  have present : account world.store userId = some (accountOf old) :=
                    congrArg (Option.map accountOf) found
                  exact Option.some.inj (standing.symm.trans present)
                refine .updates resolved accepted standing ?_
                  (changes.quietly (quiet_deleteUserSessions _ userId))
                intro unpending pending
                rw [same] at unpending
                exact notBack ⟨unpending, pending⟩

theorem effect_of_resetMfa (found : world.store.users.lookup userId = some user) :
    AuthEffect primitives world action
      (AuthRepository.resetMfa world.store userId world.clock) := by
  have standing : account world.store userId = some (accountOf user) :=
    congrArg (Option.map accountOf) found
  have changes : Changes world.store (AuthRepository.resetMfa world.store userId world.clock)
      userId _ none Silent := changes_resetMfa
  rw [standing, Option.map_some] at changes
  exact .resets standing changes

theorem lookup_of_soleOwner (found : AuthService.soleOwner primitives store username = some user) :
    store.users.lookup user.userId = some user :=
  lookup_of_findUserByUsername (Option.eq_some_of_filter_eq_some found)

/-! ## Calls that change nothing a sign-in depends on -/

theorem quiet_reauthenticate {principal elevated : SessionPrincipal}
    {mfaValue : Option Text}
    (done : AuthService.reauthenticate primitives settings store principal password mfaValue now =
      .ok (elevated, stored)) : Quiet store stored := by
  have elevates : ∀ {checked after : AuthStore} {answer : Option SessionPrincipal},
      AuthRepository.elevateSession checked principal.sessionId now
        (now + AuthService.reauthenticationTtl) = (answer, after) → Quiet checked after := by
    intro checked after answer elevation
    have quiet := quiet_elevateSession checked principal.sessionId now
      (now + AuthService.reauthenticationTtl)
    rw [elevation] at quiet
    exact quiet
  unfold AuthService.reauthenticate at done
  simp only at done
  split at done
  · cases done
  · split at done
    · split at done
      · cases done
      next elevation =>
        cases done
        exact elevates elevation
    · split at done
      next factor value held =>
        split at done
        · cases done
        · split at done
          · cases done
          next checked =>
            split at done
            · cases done
            · rw [← show factor.userId = principal.userId from Table.key_of_lookup held] at held
              obtain ⟨quiet, _⟩ := verifyMfaValue_spec held checked
              split at done
              · cases done
              next elevation =>
                cases done
                exact quiet.trans (elevates elevation)
      · cases done

theorem quiet_regenerateRecoveryCodes {codes : List String}
    (done : AuthService.regenerateRecoveryCodes primitives settings store actor fresh now =
      .ok (codes, stored)) : Quiet store stored := by
  unfold AuthService.regenerateRecoveryCodes at done
  split at done
  · cases done
  · split at done
    · cases done
    · split at done
      · cases done
      · split at done
        · cases done
        · split at done
          · cases done
          next replaced =>
            cases done
            exact quiet_replaceRecoveryCodes replaced

theorem quiet_changePassword {currentPassword newPassword : Text}
    {mfaValue : Option Text}
    (done : AuthService.changePassword primitives settings store actor currentPassword newPassword
      mfaValue fresh now = .ok stored) : Quiet store stored := by
  have changes : ∀ {checked : AuthStore},
      (AuthService.hashPassword primitives fresh.salt newPassword).map (fun passwordHash =>
        AuthRepository.deleteUserSessions (AuthRepository.updatePasswordHash checked actor.userId
          passwordHash now) actor.userId) = .ok stored → Quiet checked stored := by
    intro checked changed
    obtain ⟨passwordHash, -, rfl⟩ := map_eq_ok.mp changed
    exact (quiet_updatePasswordHash checked actor.userId now _).trans (quiet_deleteUserSessions _ _)
  unfold AuthService.changePassword at done
  simp only at done
  split at done
  · cases done
  · split at done
    · cases done
    · split at done
      · cases done
      · split at done
        · exact changes done
        next factor held =>
          split at done
          · exact changes done
          · split at done
            · cases done
            · split at done
              · cases done
              next checked =>
                split at done
                · cases done
                · rw [← show factor.userId = actor.userId from Table.key_of_lookup held] at held
                  obtain ⟨quiet, _⟩ := verifyMfaValue_spec held checked
                  exact quiet.trans (changes done)

theorem quiet_breakGlassResetPassword {confirmation : String} {newPassword : Text}
    (done : AuthService.breakGlassResetPassword primitives store username confirmation newPassword
      fresh now = .ok stored) : Quiet store stored := by
  unfold AuthService.breakGlassResetPassword at done
  simp only at done
  split at done
  · cases done
  · split at done
    · cases done
    · split at done
      · cases done
      · split at done
        · cases done
        · cases done
          exact (quiet_updatePasswordHash store _ now _).trans (quiet_deleteUserSessions _ _)

/-- Along the batch. -/
theorem quiet_rotateFactors {batch : List (Uuid × Nat)}
    (done : AuthService.rotateFactors primitives store now batch = .ok stored) :
    Quiet store stored := by
  induction batch generalizing store with
  | nil =>
      cases done
      exact .refl _
  | cons entry batch ih =>
      unfold AuthService.rotateFactors at done
      split at done
      · exact ih done
      · split at done
        · cases done
        · exact (quiet_rotateFactor _ _ now _ _).trans (ih done)

/-! ## Every call -/

/-- A unit of work that commits nothing changes nothing. -/
theorem effect_of_commit {α : Type} {answer : Except AuthError α} {commits : α → AuthStore}
    (effect : ∀ result, answer = .ok result → AuthEffect primitives world action (commits result)) :
    AuthEffect primitives world action (world.commit answer commits) := by
  cases answer with
  | ok result => exact effect result rfl
  | error error => exact .quiet (.refl world.store)

theorem effect_of_call {after : AuthStore} (totp : settings.totpEnabled = true)
    (called : world.call primitives settings action = some after) :
    AuthEffect primitives world action after := by
  cases action with
  | tick elapsed | resolve sessionToken =>
      cases called
      exact .quiet (.refl world.store)
  | bootstrap userId username password fresh =>
      cases called
      exact effect_of_commit fun _ done => effect_of_bootstrap done
  | login username password clientKey fresh =>
      cases called
      exact effect_of_login totp
  | completeMfa challengeToken value expectedPurpose fresh =>
      cases called
      exact effect_of_commit fun _ done => effect_of_completeMfa done
  | beginMfaEnrollment request fresh =>
      obtain ⟨principal, resolved, rfl⟩ := Option.map_eq_some_iff.mp called
      exact effect_of_commit fun _ done => effect_of_beginMfaEnrollment resolved done
  | reauthenticate request password mfaValue =>
      obtain ⟨principal, _, rfl⟩ := Option.map_eq_some_iff.mp called
      exact effect_of_commit fun _ done => .quiet (quiet_reauthenticate done)
  | regenerateRecoveryCodes request fresh =>
      obtain ⟨actor, _, rfl⟩ := Option.map_eq_some_iff.mp called
      exact effect_of_commit fun _ done => .quiet (quiet_regenerateRecoveryCodes done)
  | changePassword request currentPassword newPassword mfaValue fresh =>
      obtain ⟨actor, _, rfl⟩ := Option.map_eq_some_iff.mp called
      exact effect_of_commit fun _ done => .quiet (quiet_changePassword done)
  | activate activationCode password fresh =>
      cases called
      exact effect_of_commit fun _ done => effect_of_activate totp done
  | createUser request username role userId activationTokenId activationCode =>
      obtain ⟨actor, _, rfl⟩ := Option.map_eq_some_iff.mp called
      exact effect_of_commit fun _ done => effect_of_createUser done
  | reissueActivation request userId activationTokenId activationCode =>
      obtain ⟨actor, _, rfl⟩ := Option.map_eq_some_iff.mp called
      exact effect_of_commit fun _ done => .quiet (quiet_reissueActivation done)
  | updateUser request userId role status expectedVersion =>
      obtain ⟨actor, resolved, rfl⟩ := Option.map_eq_some_iff.mp called
      exact effect_of_commit fun _ done => effect_of_updateUser resolved done
  | resetUserMfa request userId =>
      obtain ⟨actor, _, rfl⟩ := Option.map_eq_some_iff.mp called
      refine effect_of_commit fun after done => ?_
      unfold AuthService.resetUserMfa at done
      split at done
      · cases done
      · split at done
        · cases done
        · split at done
          · cases done
          next found =>
            cases done
            exact effect_of_resetMfa found
  | breakGlassResetMfa username confirmation =>
      cases called
      refine effect_of_commit fun after done => ?_
      unfold AuthService.breakGlassResetMfa at done
      simp only at done
      split at done
      · cases done
      · split at done
        · cases done
        next found =>
          cases done
          exact effect_of_resetMfa (lookup_of_soleOwner found)
  | breakGlassResetPassword username confirmation newPassword fresh =>
      cases called
      exact effect_of_commit fun _ done => .quiet (quiet_breakGlassResetPassword done)
  | logout request =>
      obtain ⟨principal, _, rfl⟩ := Option.map_eq_some_iff.mp called
      exact .quiet (quiet_deleteSession world.store principal.sessionId)
  | rotateFactors batch =>
      cases called
      exact effect_of_commit fun _ done => .quiet (quiet_rotateFactors done)
  | purgeExpired =>
      cases called
      exact .quiet (quiet_purgeExpired world.store world.clock)

/-- **Every step is one of the effects.** -/
theorem effect_of_step {next : AuthWorld} (totp : settings.totpEnabled = true)
    (step : (accounts primitives settings).step world action = some next) :
    AuthEffect primitives world action next.store := by
  obtain ⟨after, called, rfl⟩ := Option.map_eq_some_iff.mp step
  exact effect_of_call totp called

end Calls

end OpsComposer.Authentication
