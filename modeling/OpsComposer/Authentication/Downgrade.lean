import OpsComposer.Authentication.Calls

/-!
# Once confirmed, a second factor is asked for

A user whose factor has been confirmed should never again get a session on the
password alone, unless its factor is reset.  `complete_mfa` keeps to this: it
refuses an enrollment over a confirmed factor.  `begin_mfa_enrollment` does not.
It stores a new secret over the old one and takes the confirmation away; that the
user has to enroll is noted in a copy of the user that is never stored.  Until the
enrollment is finished, a user whose role does not require a factor logs in with
the password alone.

* `Unguards` — the steps that lay an account open;
* `protected_of_effect` — every other step keeps an account protected;
* `noDowngrade_of_guarded` — without such steps there is no downgrade;
* `noDowngrade_fails` — the run that shows the defect.
-/

set_option autoImplicit false

namespace OpsComposer.Authentication

open Domain Foundations Repositories Services

/-! ## The property -/

/-- The session comes out of a successful verification of a second factor of its user. -/
def Verified (primitives : Primitives) (world : AuthWorld) (action : AuthAction)
    (session : AuthSession) : Prop :=
  ∃ challengeToken value purpose fresh,
    action = .completeMfa challengeToken value purpose fresh ∧
      VerifiesMfa primitives world.store session.userId value world.clock ∧
      session.mfaVerifiedAt = some world.clock

/-- From a world on, every session that is issued for the user is verified. -/
def NoDowngrade (primitives : Primitives) (M : System AuthWorld AuthAction) (userId : Uuid)
    (world : AuthWorld) : Prop :=
  ∀ later action next session, M.Leads world later → M.step later action = some next →
    Issued later.store next.store session → session.userId = userId →
      Verified primitives later action session

/-- A reset of the second factor of the user. -/
def Resets (primitives : Primitives) (userId : Uuid) (world : AuthWorld) : AuthAction → Prop
  | .resetUserMfa _ target => target = userId
  | .breakGlassResetMfa username _ =>
      ∃ user ∈ AuthService.soleOwner primitives world.store (primitives.canonicalUsername username),
        user.userId = userId
  | _ => False

/-- The user begins to enroll although neither its flag nor its role asks for it, or
loses the role that asks for it while its factor is unconfirmed and its flag unset. -/
def Unguards (userId : Uuid) (world : AuthWorld) : AuthAction → Prop
  | .beginMfaEnrollment request _ =>
      ∃ principal ∈ world.requests[request]?, principal.userId = userId ∧
        ∃ before ∈ account world.store userId,
          before.enrollmentRequired = false ∧ before.role.mfaRequired = false
  | .updateUser request target role status expectedVersion =>
      target = userId ∧ role.mfaRequired = false ∧ confirmation world.store userId ≠ some true ∧
        (∃ before ∈ account world.store userId, before.enrollmentRequired = false) ∧
        ∃ actor ∈ world.requests[request]?, (AuthService.updateUser world.store actor target role
          status expectedVersion world.clock).isOk = true
  | _ => False

/-! ## Factors belong to settled users -/

/-- The user is there, and past its activation. -/
def Settled (store : AuthStore) (userId : Uuid) : Prop :=
  ∃ standing, account store userId = some standing ∧ standing.status ≠ .pendingActivation

section Effects

variable {primitives : Primitives} {settings : AuthSettings} {world : AuthWorld}
  {action : AuthAction} {store : AuthStore}

theorem Settled.of_changes {store' : AuthStore} {userId changed : Uuid} {after : Account}
    {confirmation' : Option Bool} {issues : AuthSession → Prop} (settled : Settled store userId)
    (changes : Changes store store' changed (some after) confirmation' issues)
    (moved : userId = changed → after.status ≠ .pendingActivation) : Settled store' userId := by
  obtain ⟨standing, found, unpending⟩ := settled
  by_cases same : userId = changed
  · exact ⟨after, same ▸ changes.account, moved same⟩
  · exact ⟨standing, (changes.others userId same).1.trans found, unpending⟩

/-- A settled user stays settled. -/
theorem settled_of_effect (effect : AuthEffect primitives world action store) {userId : Uuid}
    (settled : Settled world.store userId) : Settled store userId := by
  obtain ⟨standing, found, unpending⟩ := id settled
  -- what a step says about the account it changes, it says about this one
  have of_same : ∀ {changed : Uuid} {before : Account},
      account world.store changed = some before → userId = changed → before = standing := by
    rintro changed before present rfl
    exact Option.some.inj (present.symm.trans found)
  cases effect with
  | quiet same => exact ⟨standing, (same.account userId).trans found, unpending⟩
  | adds absent changes =>
      refine settled.of_changes changes ?_
      rintro rfl
      rw [absent] at found
      cases found
  | enrolls present active due changes | reenrolls resolved present changes
  | signsIn present notDue notRequired disabled changes | resets present changes =>
      exact settled.of_changes changes fun same => of_same present same ▸ unpending
  | activates present pending changes =>
      exact settled.of_changes changes fun _ => nofun
  | verifies present held verified moved changes =>
      refine settled.of_changes changes fun same => ?_
      rcases moved with ⟨rfl, _⟩ | ⟨rfl, _⟩
      · exact of_same present same ▸ unpending
      · exact of_same present same ▸ unpending
  | updates resolved accepted present stays changes =>
      exact settled.of_changes changes fun same => stays (of_same present same ▸ unpending)

/-- Factors and resolved requests belong to settled users. -/
structure AuthInv (world : AuthWorld) : Prop where
  factors : ∀ userId, confirmation world.store userId ≠ none → Settled world.store userId
  requests : ∀ principal ∈ world.requests, Settled world.store principal.userId

/-- A factor that is there after a step is of a settled user. -/
theorem factor_of_effect (inv : AuthInv world) (effect : AuthEffect primitives world action store)
    {userId : Uuid} (held : confirmation store userId ≠ none) : Settled store userId := by
  have stays : ∀ other, Settled world.store other → Settled store other :=
    fun _ => settled_of_effect effect
  have of_changes : ∀ {changed : Uuid} {account' : Option Account} {confirmation' : Option Bool}
      {issues : AuthSession → Prop},
      Changes world.store store changed account' confirmation' issues →
      (confirmation' ≠ none → Settled store changed) → Settled store userId := by
    intro changed account' confirmation' issues changes known
    by_cases same : userId = changed
    · subst same
      exact known (changes.confirmation ▸ held)
    · exact stays userId (inv.factors userId ((changes.others userId same).2 ▸ held))
  cases effect with
  | quiet same => exact stays userId (inv.factors userId (same.confirmation userId ▸ held))
  | adds absent changes => exact of_changes changes fun had => stays _ (inv.factors _ had)
  | enrolls standing active due changes =>
      exact of_changes changes fun _ => stays _ ⟨_, standing, by rw [active]; nofun⟩
  | reenrolls resolved standing changes =>
      exact of_changes changes fun _ => stays _ (inv.requests _ (List.mem_of_getElem? resolved))
  | activates standing pending changes =>
      exact of_changes changes fun _ => ⟨_, changes.account, nofun⟩
  | signsIn standing notDue notRequired disabled changes
  | updates resolved accepted standing settled changes =>
      exact of_changes changes fun had => stays _ (inv.factors _ had)
  | verifies standing had verified moved changes =>
      exact of_changes changes fun _ => stays _ (inv.factors _ had)
  | resets standing changes => exact of_changes changes fun gone => (gone rfl).elim

/-- Requests resolve to active users. -/
theorem settled_of_resolve {sessionToken : String} {now : Nat} {principal : SessionPrincipal}
    (resolved : AuthService.resolve primitives settings store sessionToken now = .ok principal) :
    Settled store principal.userId := by
  unfold AuthService.resolve at resolved
  split at resolved
  · cases resolved
  next found =>
    split at resolved
    · cases resolved
    · cases resolved
      unfold AuthRepository.resolveSession at found
      split at found
      · cases found
      next session _ =>
        split at found
        · cases found
        next user present =>
          split at found
          next active =>
            cases found
            refine ⟨accountOf user, congrArg (Option.map accountOf) present, ?_⟩
            rw [show (accountOf user).status = .active from active]
            nofun
          · cases found

theorem authInv_inductive (totp : settings.totpEnabled = true) :
    (accounts primitives settings).Inductive AuthInv where
  initial := by
    rintro world rfl
    exact ⟨fun _ held => (held rfl).elim, fun _ member => absurd member List.not_mem_nil⟩
  preserved world action next inv step := by
    have effect := effect_of_step totp step
    refine ⟨fun _ => factor_of_effect inv effect, ?_⟩
    obtain ⟨after, called, rfl⟩ := Option.map_eq_some_iff.mp step
    intro principal member
    refine settled_of_effect effect ?_
    cases action with
    | resolve sessionToken =>
        simp only [AuthWorld.requestsAfter] at member
        split at member
        next resolved =>
          rcases List.mem_append.mp member with before | isNew
          · exact inv.requests principal before
          · obtain rfl := List.mem_singleton.mp isNew
            exact settled_of_resolve resolved
        · exact inv.requests principal member
    | _ => exact inv.requests principal member

end Effects

/-! ## Protected accounts -/

/-- The next login of the user, if there is one, asks for a second factor. -/
def Protected (store : AuthStore) (userId : Uuid) : Prop :=
  ∃ standing, account store userId = some standing ∧ standing.status ≠ .pendingActivation ∧
    (confirmation store userId = some true ∨ standing.enrollmentRequired = true ∨
      standing.role.mfaRequired = true)

section Protection

variable {primitives : Primitives} {settings : AuthSettings} {world : AuthWorld}
  {action : AuthAction} {store : AuthStore} {userId : Uuid}

/-- **Only an unguarding step leaves a protected account unprotected.** -/
theorem protected_of_effect (effect : AuthEffect primitives world action store)
    (guarded : ¬ Unguards userId world action) (safe : Protected world.store userId) :
    Protected store userId := by
  obtain ⟨standing, found, unpending, reason⟩ := id safe
  have of_changes : ∀ {changed : Uuid} {account' : Option Account} {confirmation' : Option Bool}
      {issues : AuthSession → Prop},
      Changes world.store store changed account' confirmation' issues →
      (userId = changed → Protected store userId) → Protected store userId := by
    intro changed account' confirmation' issues changes known
    by_cases same : userId = changed
    · exact known same
    · obtain ⟨sameAccount, sameFactor⟩ := changes.others userId same
      exact ⟨standing, sameAccount.trans found, unpending, sameFactor ▸ reason⟩
  cases effect with
  | quiet same =>
      exact ⟨standing, (same.account userId).trans found, unpending,
        same.confirmation userId ▸ reason⟩
  | adds absent changes =>
      refine of_changes changes ?_
      rintro rfl
      rw [absent] at found
      cases found
  | enrolls present active due changes =>
      refine of_changes changes ?_
      rintro rfl
      obtain rfl := Option.some.inj (present.symm.trans found)
      exact ⟨_, changes.account, unpending, .inr due⟩
  | @reenrolls _ _ _ principal before resolved present changes =>
      refine of_changes changes ?_
      rintro rfl
      obtain rfl := Option.some.inj (present.symm.trans found)
      refine ⟨before, changes.account, unpending, .inr ?_⟩
      by_contra open_
      simp only [not_or, Bool.not_eq_true] at open_
      exact guarded ⟨principal, resolved, rfl, before, present, open_⟩
  | activates present pending changes =>
      refine of_changes changes ?_
      rintro rfl
      obtain rfl := Option.some.inj (present.symm.trans found)
      exact absurd pending unpending
  | signsIn present notDue notRequired disabled changes =>
      refine of_changes changes ?_
      rintro rfl
      obtain rfl := Option.some.inj (present.symm.trans found)
      exact ⟨_, changes.account, unpending, changes.confirmation ▸ reason⟩
  | verifies present held verified moved changes =>
      refine of_changes changes ?_
      rintro rfl
      obtain rfl := Option.some.inj (present.symm.trans found)
      rcases moved with ⟨rfl, rfl⟩ | ⟨rfl, rfl⟩
      · exact ⟨_, changes.account, unpending, changes.confirmation ▸ reason⟩
      · exact ⟨_, changes.account, unpending, .inl changes.confirmation⟩
  | @updates _ _ role _ _ _ actor before resolved accepted present stays changes =>
      refine of_changes changes ?_
      rintro rfl
      obtain rfl := Option.some.inj (present.symm.trans found)
      refine ⟨_, changes.account, stays unpending, ?_⟩
      by_cases required : role.mfaRequired = true
      · exact .inr (.inr required)
      by_cases confirmed : confirmation world.store userId = some true
      · exact .inl (changes.confirmation.trans confirmed)
      · have flagged : before.enrollmentRequired = true := by
          by_contra unset
          exact guarded ⟨rfl, Bool.eq_false_iff.mpr required, confirmed,
            ⟨before, present, Bool.eq_false_iff.mpr unset⟩, actor, resolved, accepted⟩
        refine .inr (.inl ?_)
        simp [required, flagged]
  | resets present changes =>
      refine of_changes changes ?_
      rintro rfl
      obtain rfl := Option.some.inj (present.symm.trans found)
      exact ⟨_, changes.account, unpending, .inr (.inl rfl)⟩

/-- The sessions of a protected account are verified. -/
theorem verified_of_effect (effect : AuthEffect primitives world action store)
    (safe : Protected world.store userId) {session : AuthSession}
    (issued : Issued world.store store session) (ofUser : session.userId = userId) :
    Verified primitives world action session := by
  obtain ⟨standing, found, unpending, reason⟩ := safe
  cases effect with
  | quiet same => exact absurd issued (same.not_issued session)
  | adds absent changes | enrolls present active due changes
  | reenrolls resolved present changes | updates resolved accepted present stays changes
  | resets present changes => exact (changes.issued session issued).elim
  | activates present pending changes =>
      have owner := changes.issued session issued
      rw [← owner, ofUser, found] at present
      cases present
      exact absurd pending unpending
  | signsIn present notDue notRequired disabled changes =>
      have owner := changes.issued session issued
      rw [← owner, ofUser] at present disabled
      obtain rfl := Option.some.inj (present.symm.trans found)
      rcases reason with confirmed | flagged | required
      · exact absurd confirmed disabled
      · exact absurd (flagged.symm.trans notDue) nofun
      · exact absurd (required.symm.trans notRequired) nofun
  | verifies present held verified moved changes =>
      obtain ⟨owner, stamped⟩ := changes.issued session issued
      exact ⟨_, _, _, _, rfl, owner ▸ verified, stamped⟩

/-- **Without unguarding steps there is no downgrade.**  Resets need no exception:
they leave the user with its flag set. -/
theorem noDowngrade_of_guarded (totp : settings.totpEnabled = true)
    (reached : (accounts primitives settings).Reachable world)
    (confirmed : confirmation world.store userId = some true) :
    NoDowngrade primitives
      ((accounts primitives settings).restrict fun world action => ¬ Unguards userId world action)
      userId world := by
  intro later action next session run step issued ofUser
  obtain ⟨_, step⟩ := System.restrict_step.mp step
  have inv := (authInv_inductive totp).of_reachable reached
  obtain ⟨standing, found, unpending⟩ := inv.factors userId (by rw [confirmed]; nofun)
  have start : Protected world.store userId := ⟨standing, found, unpending, .inl confirmed⟩
  have kept : ∀ (before : AuthWorld) (action : AuthAction) (after : AuthWorld),
      Protected before.store userId →
      ((accounts primitives settings).restrict fun world action =>
        ¬ Unguards userId world action).step before action = some after →
      Protected after.store userId := by
    intro before action after safe step
    obtain ⟨guarded, step⟩ := System.restrict_step.mp step
    exact protected_of_effect (effect_of_step totp step) guarded safe
  exact verified_of_effect (effect_of_step totp step) (run.stays kept start) issued ofUser

end Protection

/-! ## The defect -/

/-- Functions that keep apart what the runs below have to keep apart; every
authenticator shows one code. -/
def plain : Primitives where
  canonicalUsername := id
  lower := id
  quote := id
  hashToken := id
  hashPassword _ password := some (String.ofList (password.map Char.ofNat))
  verifyPassword stored password :=
    some { valid := decide (stored.map text = some password), needsRehash := false }
  totpCode secret _ := some secret
  hashRecoveryCode code := some (String.ofList (code.map Char.ofNat))
  hmacSubject _ scope subject := scope ++ subject
  encryptTotp _ _ _ := ([], 1)
  decryptTotp _ _ _ := some "123456"

/-- What is drawn for a call, from one identifier and one token. -/
def drawn (id : Uuid) (token : String) : Fresh where
  sessionId := id
  sessionToken := token
  csrfToken := token
  challengeId := id
  challengeToken := token
  totpSecret := "123456"

/-- The owner enrolls and adds an operator, who enrolls of its own accord. -/
def enrollOperator : List AuthAction :=
  [.bootstrap 1 "owner" (text "correct horse") (drawn 1 "a"),
    .login "owner" (text "correct horse") "ip" (drawn 2 "b"),
    .completeMfa "b" (text "123456") none (drawn 3 "c"),
    .resolve "c",
    .createUser 0 "operator" .operator 2 1 "code",
    .activate "code" (text "battery staple") (drawn 4 "d"),
    .resolve "d",
    .beginMfaEnrollment 1 (drawn 5 "e"),
    .completeMfa "e" (text "123456") none (drawn 6 "f"),
    .resolve "f"]

theorem operator_enrolled : ∃ world, (accounts plain {}).exec .start enrollOperator = some world ∧
    confirmation world.store 2 = some true := by
  have ran : ((accounts plain {}).exec .start enrollOperator).bind (fun world =>
      confirmation world.store 2) = some true := by decide
  exact Option.bind_eq_some_iff.mp ran

theorem noDowngrade_operator : ∃ world,
    (accounts plain {}).exec .start enrollOperator = some world ∧
      NoDowngrade plain
        ((accounts plain {}).restrict fun world action => ¬ Unguards 2 world action) 2 world := by
  obtain ⟨world, ran, confirmed⟩ := operator_enrolled
  exact ⟨world, ran, noDowngrade_of_guarded rfl ⟨.start, rfl, System.leads_of_exec ran⟩ confirmed⟩

/-- It begins another enrollment, and logs in before it has finished. -/
def enrollAgain : AuthAction := .beginMfaEnrollment 2 (drawn 7 "g")

/-- Another login of the user. -/
def loginMeanwhile : AuthAction := .login "operator" (text "battery staple") "ip" (drawn 8 "h")

/-- **The operator gets a session on its password alone.** -/
theorem noDowngrade_fails : ¬ ∀ primitives settings world userId,
    settings.totpEnabled = true → (accounts primitives settings).Reachable world →
      confirmation world.store userId = some true →
        NoDowngrade primitives ((accounts primitives settings).restrict fun world action =>
          ¬ Resets primitives userId world action) userId world := by
  intro noDowngrade
  have ran : ((accounts plain {}).exec .start enrollOperator).bind (fun world =>
      ((accounts plain {}).step world enrollAgain).bind fun later =>
        ((accounts plain {}).step later loginMeanwhile).bind fun next =>
          (next.store.sessions.lookup 8).map fun session =>
            (confirmation world.store 2, (later.store.sessions.lookup 8).isSome,
              session.userId)) = some (some true, false, 2) := by decide
  obtain ⟨world, before, ran⟩ := Option.bind_eq_some_iff.mp ran
  obtain ⟨later, again, ran⟩ := Option.bind_eq_some_iff.mp ran
  obtain ⟨next, login, ran⟩ := Option.bind_eq_some_iff.mp ran
  obtain ⟨session, found, ran⟩ := Option.map_eq_some_iff.mp ran
  simp only [Prod.mk.injEq] at ran
  obtain ⟨confirmed, free, ofUser⟩ := ran
  have reached : (accounts plain {}).Reachable world := ⟨.start, rfl, System.leads_of_exec before⟩
  have noReset := noDowngrade plain {} world 2 rfl reached confirmed
  have run : ((accounts plain {}).restrict fun world action => ¬ Resets plain 2 world action).Leads
      world later := (System.Leads.refl world).tail (System.restrict_step.mpr ⟨id, again⟩)
  have isNew : Issued later.store next.store session := by
    rw [Issued, Table.key_of_lookup found]
    exact ⟨found, Option.not_isSome_iff_eq_none.mp (by rw [free]; nofun)⟩
  obtain ⟨_, _, _, _, isCompletion, _⟩ := noReset later loginMeanwhile next session run
    (System.restrict_step.mpr ⟨id, login⟩) isNew ofUser
  cases isCompletion

end OpsComposer.Authentication
