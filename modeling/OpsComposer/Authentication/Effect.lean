import OpsComposer.Authentication.System

/-!
# What one call does to accounts, factors and sessions

How a user signs in depends on five things only: the role, the status and the
enrollment flag of the account, whether there is a factor, and whether it is
confirmed.  `AuthEffect` lists what a call can do to these and which sessions it
issues; `effect_of_step` says that every step is one of the list.  What follows
about runs is proved from the list and never from the code of the service.

Most statements change nothing on the list (`Quiet`).  All others change the
account and the factor of one user (`Changes`).
-/

set_option autoImplicit false

namespace OpsComposer.Authentication

open Domain Foundations Repositories Services

/-! ## What a sign-in depends on -/

/-- The columns of a user that decide how it signs in. -/
structure Account where
  role : UserRole
  status : UserStatus
  enrollmentRequired : Bool

/-- The columns of this user. -/
def accountOf (user : User) : Account where
  role := user.role
  status := user.status
  enrollmentRequired := user.mfaEnrollmentRequired

/-- The columns of the user with the identifier, if there is one. -/
def account (store : AuthStore) (userId : Uuid) : Option Account :=
  (store.users.lookup userId).map accountOf

/-- Whether the factor of a user, if there is one, is confirmed. -/
def confirmation (store : AuthStore) (userId : Uuid) : Option Bool :=
  (store.factors.lookup userId).map fun factor => factor.confirmedAt.isSome

/-- Confirmed factors are what `login` calls enabled. -/
theorem factorEnabled_iff {store : AuthStore} {userId : Uuid} :
    AuthRepository.factorEnabled store userId = true ↔ confirmation store userId = some true := by
  cases found : store.factors.lookup userId <;>
    simp [AuthRepository.factorEnabled, confirmation, found]

/-- A session row of which there was none before. -/
def Issued (before after : AuthStore) (session : AuthSession) : Prop :=
  after.sessions.lookup session.sessionId = some session ∧
    before.sessions.lookup session.sessionId = none

/-! ## Statements that change nothing of it -/

/-- Accounts and confirmations are the same, and no session is new. -/
structure Quiet (before after : AuthStore) : Prop where
  account : ∀ userId, account after userId = account before userId
  confirmation : ∀ userId, confirmation after userId = confirmation before userId
  sessions : ∀ sessionId, before.sessions.lookup sessionId = none →
    after.sessions.lookup sessionId = none

namespace Quiet

theorem refl (store : AuthStore) : Quiet store store := ⟨fun _ => rfl, fun _ => rfl, fun _ => id⟩

theorem trans {s t u : AuthStore} (first : Quiet s t) (second : Quiet t u) : Quiet s u where
  account userId := (second.account userId).trans (first.account userId)
  confirmation userId := (second.confirmation userId).trans (first.confirmation userId)
  sessions sessionId free := second.sessions sessionId (first.sessions sessionId free)

/-- Statements about other tables. -/
theorem of_tables {s t : AuthStore} (users : t.users = s.users) (factors : t.factors = s.factors)
    (sessions : t.sessions = s.sessions) : Quiet s t where
  account userId := by simp only [Authentication.account, users]
  confirmation userId := by simp only [Authentication.confirmation, factors]
  sessions sessionId free := by rw [sessions, free]

theorem not_issued {s t : AuthStore} (quiet : Quiet s t) (session : AuthSession) :
    ¬ Issued s t session := by
  rintro ⟨found, free⟩
  exact Table.not_free (quiet.sessions _ free) found

end Quiet

/-- Rewriting users without touching the three columns. -/
theorem account_update {users : Table User.userId} {p : User → Prop} [DecidablePred p]
    {f : User → User} (keeps : ∀ user, (f user).userId = user.userId)
    (same : ∀ user, accountOf (f user) = accountOf user) (userId : Uuid) :
    ((users.update p f keeps).lookup userId).map accountOf =
      (users.lookup userId).map accountOf := by
  rw [Table.lookup_update, Option.map_map]
  refine congrArg (Option.map · _) (funext fun user => ?_)
  by_cases holds : p user <;> simp [holds, same]

/-- Rewriting factors without confirming them or taking the confirmation away. -/
theorem confirmation_update {factors : Table MfaFactor.userId} {p : MfaFactor → Prop}
    [DecidablePred p] {f : MfaFactor → MfaFactor}
    (keeps : ∀ factor, (f factor).userId = factor.userId)
    (same : ∀ factor, (f factor).confirmedAt = factor.confirmedAt) (userId : Uuid) :
    ((factors.update p f keeps).lookup userId).map (fun factor => factor.confirmedAt.isSome) =
      (factors.lookup userId).map fun factor => factor.confirmedAt.isSome := by
  rw [Table.lookup_update, Option.map_map]
  refine congrArg (Option.map · _) (funext fun factor => ?_)
  by_cases holds : p factor <;> simp [holds, same]

/-- No deletion of sessions makes one. -/
theorem free_delete {sessions : Table AuthSession.sessionId} {p : AuthSession → Prop}
    [DecidablePred p] {sessionId : Uuid} (free : sessions.lookup sessionId = none) :
    (sessions.delete p).lookup sessionId = none :=
  Table.lookup_delete_eq_none.mpr fun _ found => absurd found (by simp [free])

section Statements

variable (store : AuthStore) (userId : Uuid) (now : Nat)

theorem quiet_updatePasswordHash (passwordHash : String) :
    Quiet store (AuthRepository.updatePasswordHash store userId passwordHash now) where
  account := by refine account_update ?_ ?_ <;> exact fun _ => rfl
  confirmation _ := rfl
  sessions _ := id

theorem quiet_acceptTotpStep (step : Nat) :
    Quiet store (AuthRepository.acceptTotpStep store userId step now).2 where
  account _ := rfl
  confirmation := by refine confirmation_update ?_ ?_ <;> exact fun _ => rfl
  sessions _ := id

theorem quiet_rotateFactor (envelope : List UInt8) (keyVersion : Nat) :
    Quiet store (AuthRepository.rotateFactor store userId envelope keyVersion now) where
  account _ := rfl
  confirmation := by refine confirmation_update ?_ ?_ <;> exact fun _ => rfl
  sessions _ := id

theorem quiet_deleteSession (sessionId : Uuid) :
    Quiet store (AuthRepository.deleteSession store sessionId) where
  account _ := rfl
  confirmation _ := rfl
  sessions _ := free_delete

theorem quiet_deleteUserSessions :
    Quiet store (AuthRepository.deleteUserSessions store userId) where
  account _ := rfl
  confirmation _ := rfl
  sessions _ := free_delete

theorem quiet_purgeExpired : Quiet store (AuthRepository.purgeExpired store now) where
  account _ := rfl
  confirmation _ := rfl
  sessions _ := free_delete

theorem quiet_elevateSession (sessionId : Uuid) (reauthenticatedAt elevatedUntil : Nat) :
    Quiet store
      (AuthRepository.elevateSession store sessionId reauthenticatedAt elevatedUntil).2 where
  account _ := rfl
  confirmation _ := rfl
  sessions other free := by
    rw [AuthRepository.elevateSession, Table.lookup_update, free, Option.map_none]

variable {store userId now}

variable {stored : AuthStore}

theorem quiet_addChallenge {challenge : AuthChallenge}
    (added : AuthRepository.addChallenge store challenge = some stored) : Quiet store stored := by
  unfold AuthRepository.addChallenge at added
  split at added
  · cases added
  · obtain ⟨challenges, _, rfl⟩ := Option.map_eq_some_iff.mp added
    exact .of_tables rfl rfl rfl

theorem quiet_addActivationToken {token : ActivationToken}
    (added : AuthRepository.addActivationToken store token = some stored) : Quiet store stored := by
  unfold AuthRepository.addActivationToken at added
  split at added
  · cases added
  · obtain ⟨activationTokens, _, rfl⟩ := Option.map_eq_some_iff.mp added
    exact .of_tables rfl rfl rfl

theorem quiet_replaceRecoveryCodes {rows : List (Uuid × String)}
    (replaced : AuthRepository.replaceRecoveryCodes store userId rows now = some stored) :
    Quiet store stored := by
  obtain ⟨recoveryCodes, _, rfl⟩ := Option.map_eq_some_iff.mp replaced
  exact .of_tables rfl rfl rfl

/-- A consumed activation token belongs to a pending user. -/
theorem consumeActivationToken_spec {tokenHash : String} {user : User}
    (consumed : AuthRepository.consumeActivationToken store tokenHash now = some (user, stored)) :
    store.users.lookup user.userId = some user ∧ user.status = .pendingActivation ∧
      Quiet store stored := by
  unfold AuthRepository.consumeActivationToken at consumed
  split at consumed
  · cases consumed
  next token _ =>
    split at consumed
    · cases consumed
    next owner found =>
      split at consumed
      next pending =>
        simp only [Option.some.injEq, Prod.mk.injEq] at consumed
        obtain ⟨rfl, rfl⟩ := consumed
        rw [Table.key_of_lookup found]
        exact ⟨found, pending, .of_tables rfl rfl rfl⟩
      · cases consumed

end Statements

/-! ## Statements that change one user -/

/-- The account and the factor of one user become as given, those of the others
stay, and the sessions that are new meet a condition. -/
structure Changes (before after : AuthStore) (userId : Uuid) (account' : Option Account)
    (confirmation' : Option Bool) (issues : AuthSession → Prop) : Prop where
  account : account after userId = account'
  confirmation : confirmation after userId = confirmation'
  others : ∀ other, other ≠ userId →
    Authentication.account after other = Authentication.account before other ∧
      Authentication.confirmation after other = Authentication.confirmation before other
  issued : ∀ session, Issued before after session → issues session

/-- No session is new. -/
abbrev Silent (_ : AuthSession) : Prop := False

theorem Quiet.changes {s t : AuthStore} (quiet : Quiet s t) (userId : Uuid) :
    Changes s t userId (Authentication.account s userId) (Authentication.confirmation s userId)
      Silent where
  account := quiet.account userId
  confirmation := quiet.confirmation userId
  others other _ := ⟨quiet.account other, quiet.confirmation other⟩
  issued := quiet.not_issued

/-- A silent change and then any change of the same user. -/
theorem Changes.trans {s t u : AuthStore} {userId : Uuid} {account₁ account₂ : Option Account}
    {confirmation₁ confirmation₂ : Option Bool} {issues : AuthSession → Prop}
    (first : Changes s t userId account₁ confirmation₁ Silent)
    (second : Changes t u userId account₂ confirmation₂ issues) :
    Changes s u userId account₂ confirmation₂ issues where
  account := second.account
  confirmation := second.confirmation
  others other apart := by
    have before := first.others other apart
    have after := second.others other apart
    exact ⟨after.1.trans before.1, after.2.trans before.2⟩
  issued session isNew := by
    refine second.issued session ⟨isNew.1, ?_⟩
    cases found : t.sessions.lookup session.sessionId with
    | none => rfl
    | some row =>
        have named := Table.key_of_lookup found
        exact (first.issued row ⟨named.symm ▸ found, named.symm ▸ isNew.2⟩).elim

theorem Changes.quietly {s t u : AuthStore} {userId : Uuid} {account₁ : Option Account}
    {confirmation₁ : Option Bool} (first : Changes s t userId account₁ confirmation₁ Silent)
    (second : Quiet t u) : Changes s u userId account₁ confirmation₁ Silent := by
  have after := second.changes userId
  rw [first.account, first.confirmation] at after
  exact first.trans after

section Statements

variable {primitives : Primitives} {settings : AuthSettings} {store stored : AuthStore}
  {userId : Uuid} {now : Nat}

theorem changes_putMfaFactor {factor : MfaFactor} (unconfirmed : factor.confirmedAt = none) :
    Changes store (AuthRepository.putMfaFactor store factor) factor.userId
      (account store factor.userId) (some false) Silent where
  account := rfl
  confirmation := by
    unfold confirmation AuthRepository.putMfaFactor
    cases found : store.factors.lookup factor.userId with
    | none => simp [unconfirmed]
    | some old => simp
  others other apart := by
    refine ⟨rfl, ?_⟩
    unfold confirmation AuthRepository.putMfaFactor
    cases found : store.factors.lookup factor.userId <;>
      simp [Table.lookup_put, Ne.symm apart]
  issued _ isNew := Table.not_free isNew.2 isNew.1

theorem changes_confirmMfaFactor :
    Changes store (AuthRepository.confirmMfaFactor store userId now) userId
      ((account store userId).map fun before => { before with enrollmentRequired := false })
      ((confirmation store userId).map fun _ => true) Silent where
  account := by
    simp only [account, AuthRepository.confirmMfaFactor, Table.lookup_update_at, if_true,
      Option.map_map]
    rfl
  confirmation := by
    simp only [confirmation, AuthRepository.confirmMfaFactor, Table.lookup_update_at, if_true,
      Option.map_map]
    rfl
  others other apart := by
    simp only [account, confirmation, AuthRepository.confirmMfaFactor, Table.lookup_update_at,
      if_neg (Ne.symm apart), and_self]
  issued _ isNew := Table.not_free isNew.2 isNew.1

theorem changes_resetMfa :
    Changes store (AuthRepository.resetMfa store userId now) userId
      ((account store userId).map fun before => { before with enrollmentRequired := true })
      none Silent where
  account := by
    simp only [account, AuthRepository.resetMfa, Table.lookup_update_at, if_true, Option.map_map]
    rfl
  confirmation := by
    have gone : (store.factors.delete fun factor => factor.userId = userId).lookup userId = none :=
      Table.lookup_delete_eq_none.mpr fun _ found => Table.key_of_lookup found
    simp only [confirmation, AuthRepository.resetMfa, gone, Option.map_none]
  others other apart := by
    have kept : (store.factors.delete fun factor => factor.userId = userId).lookup other =
        store.factors.lookup other := by
      cases found : store.factors.lookup other with
      | none => exact Table.lookup_delete_eq_none.mpr fun _ present => absurd present (by simp [found])
      | some factor =>
          refine Table.lookup_delete_eq_some.mpr ⟨found, ?_⟩
          rw [Table.key_of_lookup found]
          exact apart
    simp only [account, confirmation, AuthRepository.resetMfa, Table.lookup_update_at,
      if_neg (Ne.symm apart), kept, and_self]
  issued _ isNew := Table.not_free (free_delete isNew.2) isNew.1

variable {fresh : Fresh} {user : User}

theorem changes_addUser {lower : String → String}
    (added : AuthRepository.addUser lower store user = some stored) :
    account store user.userId = none ∧
      Changes store stored user.userId (some (accountOf user)) (confirmation store user.userId)
        Silent := by
  unfold AuthRepository.addUser at added
  split at added
  · cases added
  · obtain ⟨users, inserted, rfl⟩ := Option.map_eq_some_iff.mp added
    obtain ⟨free, rfl⟩ := Table.insert?_eq_some.mp inserted
    refine ⟨by simp [account, free], ?_, rfl, ?_, fun _ isNew => Table.not_free isNew.2 isNew.1⟩
    · simp [account]
    · intro other apart
      simp [account, confirmation, Table.lookup_put_of_ne _ (Ne.symm apart)]

/-- Rewriting the row of one user. -/
theorem changes_users {f : User → User} (keeps : ∀ user, (f user).userId = user.userId)
    (found : store.users.lookup userId = some user) :
    Changes store { store with users := store.users.update (fun u => u.userId = userId) f keeps }
      userId (some (accountOf (f user))) (confirmation store userId) Silent where
  account := by simp only [account, Table.lookup_update_at, found, if_true, Option.map_some]
  confirmation := rfl
  others other apart := by
    simp only [account, confirmation, Table.lookup_update_at, if_neg (Ne.symm apart), and_self]
  issued _ isNew := Table.not_free isNew.2 isNew.1

/-- `_issue` adds one session, of the user it is called with. -/
theorem changes_issue {mfaEnabled elevated : Bool}
    {mfaVerifiedAt : Option Nat} {issued : IssuedSession}
    (done : AuthService.issue primitives settings store user fresh now mfaEnabled mfaVerifiedAt
      elevated = .ok (issued, stored)) :
    Changes store stored user.userId (account store user.userId) (confirmation store user.userId)
      fun session => session.userId = user.userId ∧ session.mfaVerifiedAt = mfaVerifiedAt := by
  unfold AuthService.issue at done
  simp only at done
  split at done
  · cases done
  next added =>
    unfold AuthRepository.addSession at added
    split at added
    · cases added
    · obtain ⟨sessions, inserted, rfl⟩ := Option.map_eq_some_iff.mp added
      obtain ⟨free, rfl⟩ := Table.insert?_eq_some.mp inserted
      simp only [Except.ok.injEq, Prod.mk.injEq] at done
      obtain ⟨_, rfl⟩ := done
      refine ⟨rfl, rfl, fun _ _ => ⟨rfl, rfl⟩, ?_⟩
      rintro session ⟨found, before⟩
      rw [Table.lookup_put] at found
      split at found
      · obtain rfl := Option.some.inj found
        exact ⟨rfl, rfl⟩
      · rw [before] at found
        cases found

/-- The challenge of a login changes nothing. -/
theorem quiet_issueChallenge {purpose : ChallengePurpose}
    {issued : IssuedChallenge}
    (done : AuthService.issueChallenge primitives settings store user fresh now purpose false =
      .ok (issued, stored)) : Quiet store stored := by
  unfold AuthService.issueChallenge at done
  split at done
  · cases done
  · simp only at done
    split at done
    · cases done
    next added =>
      simp only [Except.ok.injEq, Prod.mk.injEq] at done
      obtain ⟨_, rfl⟩ := done
      exact quiet_addChallenge added

/-- The challenge of an enrollment starts it: the factor is there, and unconfirmed. -/
theorem changes_issueChallenge {purpose : ChallengePurpose}
    {issued : IssuedChallenge}
    (done : AuthService.issueChallenge primitives settings store user fresh now purpose true =
      .ok (issued, stored)) :
    Changes store stored user.userId (account store user.userId) (some false) Silent := by
  unfold AuthService.issueChallenge at done
  split at done
  · cases done
  · simp only at done
    split at done
    · cases done
    next added =>
      simp only [Except.ok.injEq, Prod.mk.injEq] at done
      obtain ⟨_, rfl⟩ := done
      have pending : (AuthService.pendingFactor primitives user fresh now).confirmedAt = none := rfl
      exact (changes_putMfaFactor pending).quietly (quiet_addChallenge added)

end Statements

/-! ## Proofs of possession -/

variable (primitives : Primitives)

/-- The value is a code of the factor, for a step next to the current one and
newer than the last accepted one. -/
def ShowsTotp (factor : MfaFactor) (value : Text) (now : Nat) : Prop :=
  ∃ secret step,
    primitives.decryptTotp factor.userId factor.encryptedTotpSecret factor.encryptionKeyVersion =
        some secret ∧
      (primitives.totpCode secret step).map text = some value ∧
      now / seconds 30 ≤ step + 1 ∧ step ≤ now / seconds 30 + 1 ∧
      ∀ last ∈ factor.lastAcceptedStep, last < step

/-- The value is an unused recovery code of the user. -/
def ShowsRecoveryCode (store : AuthStore) (userId : Uuid)
    (value : Text) : Prop :=
  ∃ codeHash, primitives.hashRecoveryCode value = some codeHash ∧
    ∃ code ∈ store.recoveryCodes.rows, AuthRepository.Unused userId codeHash code

/-- A successful verification of a second factor of the user. -/
def VerifiesMfa (store : AuthStore) (userId : Uuid) (value : Text)
    (now : Nat) : Prop :=
  (∃ factor ∈ AuthRepository.getMfaFactor store userId, ShowsTotp primitives factor value now) ∨
    ShowsRecoveryCode primitives store userId value

variable {primitives : Primitives}

theorem firstMatch_spec {secret : String} {code : Text} {steps : List Nat} {step : Nat}
    (found : firstMatch primitives secret code steps = .ok (some step)) :
    step ∈ steps ∧ (primitives.totpCode secret step).map text = some code := by
  induction steps with
  | nil => cases found
  | cons tried steps ih =>
      unfold firstMatch at found
      split at found
      · cases found
      next computed isComputed =>
        split at found
        next same =>
          cases found
          exact ⟨List.mem_cons_self, by rw [isComputed, Option.map_some, same]⟩
        next =>
          obtain ⟨member, isCode⟩ := ih found
          exact ⟨List.mem_cons_of_mem _ member, isCode⟩

theorem matchTotpStep_spec {secret : String} {code : Text}
    {now step : Nat} {lastAcceptedStep : Option Nat}
    (found : matchTotpStep primitives secret code now lastAcceptedStep = .ok (some step)) :
    (primitives.totpCode secret step).map text = some code ∧ now / seconds 30 ≤ step + 1 ∧
      step ≤ now / seconds 30 + 1 ∧ ∀ last ∈ lastAcceptedStep, last < step := by
  unfold matchTotpStep at found
  split at found
  · cases found
  · obtain ⟨tried, isCode⟩ := firstMatch_spec found
    obtain ⟨early, late, accepted⟩ := mem_triedSteps.mp tried
    exact ⟨isCode, early, late, accepted⟩

/-- `_verify_mfa_value` says yes only to a proof of possession. -/
theorem verifyMfaValue_spec {store stored : AuthStore}
    {factor : MfaFactor} {value : Text} {allowRecovery recovered verified : Bool} {now : Nat}
    (found : AuthRepository.getMfaFactor store factor.userId = some factor)
    (done : AuthService.verifyMfaValue primitives store factor value allowRecovery now =
      .ok ((verified, recovered), stored)) :
    Quiet store stored ∧
      (verified = true → VerifiesMfa primitives store factor.userId value now) := by
  unfold AuthService.verifyMfaValue at done
  split at done
  · cases done
  next secret opened =>
    split at done
    · cases done
    next step isStep =>
      simp only [Except.ok.injEq, Prod.mk.injEq] at done
      obtain ⟨_, rfl⟩ := done
      have spec := matchTotpStep_spec isStep
      exact ⟨quiet_acceptTotpStep store factor.userId now step,
        fun _ => .inl ⟨factor, found, secret, step, opened, spec⟩⟩
    next =>
      split at done
      · split at done
        · cases done
        next codeHash hashed =>
          simp only [AuthRepository.consumeRecoveryCode, Except.ok.injEq, Prod.mk.injEq] at done
          obtain ⟨⟨rfl, _⟩, rfl⟩ := done
          refine ⟨.of_tables rfl rfl rfl, fun used => .inr ⟨codeHash, hashed, ?_⟩⟩
          exact of_decide_eq_true used
      · simp only [Except.ok.injEq, Prod.mk.injEq] at done
        obtain ⟨⟨rfl, _⟩, rfl⟩ := done
        exact ⟨.refl store, by simp⟩

end OpsComposer.Authentication
