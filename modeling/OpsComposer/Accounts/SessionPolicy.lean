import OpsComposer.Accounts.Statements

/-!
# Sessions honour the MFA policy at every use

A session issued on a password alone can stop to be enough later: its user is
promoted or enrolls, or the setting is switched on.  `resolve` therefore judges the
session again at each use, by the current row of the user and by whether the session
has a time of verification.

What makes this sound is an invariant about the time of verification: only
`complete_mfa` sets it, when it adds the session, and no statement changes it.
-/

set_option autoImplicit false

namespace OpsComposer.Accounts

open Domain Foundations Repositories Services

/-- A committed `complete_mfa` of the session's user has added the session. -/
def CompletedBy (db : AuthDb) (session : AuthSession) : Prop :=
  ∃ (id : Nat) (txn : AuthTxn) (added : AuthSession) (rows : List AuthRow) (seen : Nat),
    db.txns[id]? = some txn ∧ txn.status = .committed ∧ IsCompletion txn.call ∧
      .ran (.addSession added) rows seen ∈ txn.log ∧ added.sessionId = session.sessionId ∧
        added.userId = session.userId

/-- **A time of verification is proof of a completion.** -/
theorem completedBy_of_verified {primitives : Primitives} {world : AccountWorld}
    (reachable : (accountSystem primitives).Reachable world) {sessionId : Uuid}
    {session : AuthSession} (found : world.db.state.sessions.lookup sessionId = some session)
    (verified : session.mfaVerifiedAt ≠ none) : CompletedBy world.db session := by
  have sourced := (sourced_inductive primitives).of_reachable reachable
  have shown : RowStore.lookup world.db.state (AuthKey.session sessionId) =
      some (.session session) := by
    show (world.db.state.sessions.lookup sessionId).map AuthRow.session = _
    rw [found, Option.map_some]
  obtain ⟨id, txn, present, done, statement, rows, seen, ran, source⟩ :=
    sourced.committed _ _ shown
  cases statement with
  | addSession added =>
      obtain ⟨sameId, sameUser, sameTime⟩ := source
      have permitted := permitted_of_ran reachable present ran
      exact ⟨id, txn, added, rows, seen, present, done, permitted.2 (sameTime ▸ verified), ran,
        sameId.symm, sameUser.symm⟩
  | _ => exact source.elim

/-! ## What `resolve` answers -/

/-- The rows behind a principal that `resolve_session` returns. -/
theorem of_resolveSession {store : AuthStore} {tokenHash : String} {now : Nat}
    {principal : SessionPrincipal}
    (resolved : AuthRepository.resolveSession store tokenHash now = some principal) :
    ∃ session user, store.sessions.lookup session.sessionId = some session ∧
      session.tokenHash = tokenHash ∧ now < session.expiresAt ∧
      store.users.lookup session.userId = some user ∧ user.status = .active ∧
      principal = AuthRepository.principal store session user := by
  unfold AuthRepository.resolveSession at resolved
  split at resolved
  · cases resolved
  · rename_i session found
    obtain ⟨token, live⟩ : session.tokenHash = tokenHash ∧ now < session.expiresAt := by
      simpa using List.find?_some found
    split at resolved
    · cases resolved
    · rename_i user named
      split at resolved
      · rename_i active
        exact ⟨session, user, Table.lookup_of_mem (List.mem_of_find?_eq_some found), token, live,
          named, active, (Option.some.inj resolved).symm⟩
      · cases resolved

/-- What `resolve` lets pass. -/
theorem of_resolve {primitives : Primitives} {settings : AuthSettings} {store : AuthStore}
    {sessionToken : String} {now : Nat} {principal : SessionPrincipal}
    (resolved : AuthService.resolve primitives settings store sessionToken now = .ok principal) :
    AuthRepository.resolveSession store (primitives.hashToken sessionToken) now = some principal ∧
      (settings.totpEnabled = true → principal.mfaEnrollmentRequired = false ∧
        (principal.role.mfaRequired = true → principal.mfaEnabled = true) ∧
        (principal.mfaEnabled = true → principal.mfaVerifiedAt ≠ none)) := by
  unfold AuthService.resolve at resolved
  split at resolved
  · cases resolved
  · rename_i answer found
    split at resolved
    · cases resolved
    · rename_i passed
      obtain rfl : answer = principal := by simpa using resolved
      refine ⟨found, fun enabled => ?_⟩
      simp only [enabled, true_and, not_or, not_and, Bool.not_eq_true, Bool.not_eq_false] at passed
      exact passed

/-! ## The result -/

/-- **Sessions honour the MFA policy at every use.**  A principal is what the current
rows of its session and of its user say, with the role of the user and the permissions of
that role; the session is live and the user is active; and with TOTP enabled, an owner, an
administrator or a user with a confirmed factor has a confirmed factor and a session that a
`complete_mfa` of that user has created. -/
theorem policy_of_resolve (primitives : Primitives) {world : AccountWorld}
    (reachable : (accountSystem primitives).Reachable world) {sessionToken : String}
    {principal : SessionPrincipal}
    (resolved : AuthService.resolve primitives world.settings world.db.state sessionToken
      world.clock = .ok principal) :
    ∃ session user,
      world.db.state.sessions.lookup session.sessionId = some session ∧
      session.tokenHash = primitives.hashToken sessionToken ∧
      world.clock < session.expiresAt ∧
      world.db.state.users.lookup session.userId = some user ∧ user.status = .active ∧
      principal = AuthRepository.principal world.db.state session user ∧
      principal.role = user.role ∧ principal.permissions = permissionsForRole user.role ∧
      (world.settings.totpEnabled = true →
        user.role.mfaRequired = true ∨
          AuthRepository.factorEnabled world.db.state user.userId = true →
        AuthRepository.factorEnabled world.db.state user.userId = true ∧
          CompletedBy world.db session) := by
  obtain ⟨found, passed⟩ := of_resolve resolved
  obtain ⟨session, user, present, token, live, named, active, rfl⟩ := of_resolveSession found
  refine ⟨session, user, present, token, live, named, active, rfl, rfl, rfl,
    fun enabled subject => ?_⟩
  obtain ⟨-, required, verified⟩ := passed enabled
  have factor : AuthRepository.factorEnabled world.db.state user.userId = true := by
    rcases subject with isRequired | isEnabled
    · exact required isRequired
    · exact isEnabled
  exact ⟨factor, completedBy_of_verified reachable present (verified factor)⟩

/-- The first owner enrolls, and has a session. -/
def ownerEnrolls : List AccountAction :=
  [.begin (.bootstrap 1 "owner" (text "correct horse")) (drawn 1 "a" "000001")] ++
    performs 0 [true, false, false] ++ [.commit 0] ++
    [.begin (.login "owner" (text "correct horse") ⟨"login", "ip", 0⟩) (drawn 2 "b" "111111")] ++
    performs 1 [false, false, false, true, false, false] ++ [.commit 1] ++
    [.begin (.completeMfa "b" (text "111111") none) (drawn 3 "c" "000003")] ++
    performs 2 ([true] ++ List.replicate 9 false ++ [true, false]) ++ [.commit 2]

theorem policy_of_resolve_owner : ∃ world principal,
    (accountSystem plain).exec (.start {}) ownerEnrolls = some world ∧
      AuthService.resolve plain world.settings world.db.state "c" world.clock = .ok principal ∧
      ∃ session user,
        world.db.state.sessions.lookup session.sessionId = some session ∧
        session.tokenHash = "c" ∧ world.clock < session.expiresAt ∧
        world.db.state.users.lookup session.userId = some user ∧ user.status = .active ∧
        principal = AuthRepository.principal world.db.state session user ∧
        principal.role = user.role ∧ principal.permissions = permissionsForRole user.role ∧
        (world.settings.totpEnabled = true →
          user.role.mfaRequired = true ∨
            AuthRepository.factorEnabled world.db.state user.userId = true →
          AuthRepository.factorEnabled world.db.state user.userId = true ∧
            CompletedBy world.db session) := by
  have ran : ((accountSystem plain).exec (.start {}) ownerEnrolls).bind (fun world =>
      (AuthService.resolve plain world.settings world.db.state "c" world.clock).toOption.map
        fun principal => principal.mfaVerifiedAt) = some (some 0) := by
    decide +kernel
  obtain ⟨world, enrolled, rest⟩ := Option.bind_eq_some_iff.mp ran
  cases resolved : AuthService.resolve plain world.settings world.db.state "c" world.clock with
  | error error => simp [resolved, Except.toOption] at rest
  | ok principal =>
      exact ⟨world, principal, enrolled, resolved, policy_of_resolve plain
        ⟨.start {}, ⟨_, rfl⟩, System.leads_of_exec enrolled⟩ resolved⟩

end OpsComposer.Accounts
