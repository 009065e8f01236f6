import OpsComposer.Accounts.System

/-!
# There is always an active owner

Two transactions that take the role or the status of two owners away write different
rows, so that row locks do not keep them apart.  The deferred constraint does: between
its check and the commit of its transaction no other transaction that has set a role or
a status can commit, and transactions that have set neither leave roles and statuses
as they are.

* `KeepsStanding` — a transaction that has set no watched column shows every user with
  the role and the status of the committed state;
* `Owned` — a transaction that has been checked shows an active owner, and at most one
  transaction has been checked;
* `activeOwner_of_leads` — once there is an active owner, there is one in every
  committed state of every run.
-/

set_option autoImplicit false

namespace OpsComposer.Accounts

open Domain Foundations Repositories Services

/-! ## Owners -/

/-- Some user has the role OWNER and the status ACTIVE. -/
def ActiveOwner (store : AuthStore) : Prop :=
  ∃ userId user, store.users.lookup userId = some user ∧ user.role = .owner ∧
    user.status = .active

variable {store : AuthStore} {txn : AuthTxn}

theorem countActiveOwners_ne_zero :
    AuthRepository.countActiveOwners store ≠ 0 ↔ ActiveOwner store := by
  rw [AuthRepository.countActiveOwners, ← Nat.pos_iff_ne_zero, List.length_pos_iff_exists_mem]
  simp only [Table.mem_select, ActiveOwner]
  constructor
  · rintro ⟨user, found, standing⟩
    exact ⟨user.userId, user, found, standing⟩
  · rintro ⟨userId, user, found, standing⟩
    exact ⟨user, Table.key_of_lookup found ▸ found, standing⟩

/-! ## The user that a key shows -/

theorem lookup_user {userId : Uuid} {user : User} :
    RowStore.lookup store (.user userId) = some (.user user) ↔
      store.users.lookup userId = some user := by
  show (store.users.lookup userId).map AuthRow.user = some (.user user) ↔ _
  simp

theorem lookup_user_congr {store' : AuthStore} {userId : Uuid}
    (same : RowStore.lookup store (.user userId) = RowStore.lookup store' (.user userId)) :
    store.users.lookup userId = store'.users.lookup userId := by
  cases found : store.users.lookup userId with
  | some user => exact (lookup_user.mp (same ▸ lookup_user.mpr found)).symm
  | none =>
      cases found' : store'.users.lookup userId with
      | none => rfl
      | some user =>
          rw [lookup_user.mp (same.symm ▸ lookup_user.mpr found')] at found
          cases found

/-- Every user of the first state is one of the second, with the same role and the same
status. -/
def KeepsStanding (before after : AuthStore) : Prop :=
  ∀ userId user, before.users.lookup userId = some user →
    ∃ user', after.users.lookup userId = some user' ∧ user'.role = user.role ∧
      user'.status = user.status

theorem KeepsStanding.refl (store : AuthStore) : KeepsStanding store store :=
  fun _ user found => ⟨user, found, rfl, rfl⟩

theorem KeepsStanding.trans {s t u : AuthStore} (first : KeepsStanding s t)
    (second : KeepsStanding t u) : KeepsStanding s u := by
  intro userId user found
  obtain ⟨middle, found', role, status⟩ := first userId user found
  obtain ⟨last, found'', role', status'⟩ := second userId middle found'
  exact ⟨last, found'', role'.trans role, status'.trans status⟩

theorem KeepsStanding.activeOwner {before after : AuthStore} (keeps : KeepsStanding before after)
    (owned : ActiveOwner before) : ActiveOwner after := by
  obtain ⟨userId, user, found, owner, active⟩ := owned
  obtain ⟨user', found', role, status⟩ := keeps userId user found
  exact ⟨userId, user', found', role.trans owner, status.trans active⟩

/-! ## Statements -/

/-- Only the statements that set watched columns change a role or a status, and none
deletes a user. -/
theorem standing_of_change {lower : String → String} {statement : AuthStatement} {user : User}
    {after : Option AuthRow} (change : AuthChange store statement (some (.user user)) after)
    (unwatched : (statement.meaning lower store).isWatched = false) :
    ∃ user', after = some (.user user') ∧ user'.role = user.role ∧
      user'.status = user.status := by
  cases change with
  | updateUser _ _ | activateUser _ _ _ => cases unwatched
  | updatePasswordHash _ _ | endEnrollment _ _ | requireEnrollment _ _ => exact ⟨_, rfl, rfl, rfl⟩

/-! ## Transactions -/

/-- What the standing of users needs of a database. -/
structure Owned (db : AuthDb) : Prop where
  exclusive : db.Exclusive
  /-- Without watched columns set, a transaction keeps every standing. -/
  keeps : ∀ (id : Nat) (txn : AuthTxn), db.txns[id]? = some txn → txn.live = true →
    txn.watched = false → KeepsStanding db.state (txn.view db.state)
  /-- A transaction that has been checked leaves an active owner. -/
  leaves : ∀ (id : Nat) (txn : AuthTxn), db.txns[id]? = some txn → txn.status = .checked →
    ActiveOwner (txn.view db.state)
  /-- At most one transaction has been checked. -/
  alone : ∀ (id id' : Nat) (txn txn' : AuthTxn), db.txns[id]? = some txn →
    db.txns[id']? = some txn' → txn.status = .checked → txn'.status = .checked → id = id'

theorem Owned.initial : Owned { state := .empty } where
  exclusive _ _ _ _ _ found := by simp at found
  keeps _ _ found := by simp at found
  leaves _ _ found := by simp at found
  alone _ _ _ _ found := by simp at found

/-- A statement that sets no watched column keeps every standing. -/
theorem standing_of_performed {primitives : Primitives} {db : AuthDb} {id : Nat}
    {statement : AuthStatement} {shown : List AuthRow} {writes : List (Write AuthKey AuthRow)}
    (result : db.performed (authService primitives) id txn statement = some (some (shown, writes)))
    (unwatched : (((authService primitives).meaning statement
      (txn.view (db.snapshotFor txn).state)).isWatched && !writes.isEmpty) = false) :
    KeepsStanding (txn.view db.state) (RowStore.applyAll db.state (txn.writes ++ writes)) := by
  intro userId user found
  rcases Db.performed_row result (AuthKey.user userId) with ⟨-, same⟩ | ⟨touched, change⟩
  · exact ⟨user, (lookup_user_congr same).trans found, rfl, rfl⟩
  · have quiet : ((authService primitives).meaning statement
        (txn.view (db.snapshotFor txn).state)).isWatched = false := by
      rcases Bool.and_eq_false_iff.mp unwatched with quiet | nothing
      · exact quiet
      · obtain rfl : writes = [] := by simpa using nothing
        cases touched
    rw [lookup_user.mpr found] at change
    obtain ⟨user', after, standing⟩ := standing_of_change (authChange_of_changes change) quiet
    exact ⟨user', lookup_user.mp after, standing⟩

/-- What a commit changes for others, when it keeps every standing. -/
theorem standing_of_commit {other : AuthTxn} {state : AuthStore}
    (keeps : KeepsStanding state (txn.view state)) :
    KeepsStanding (other.view state) (other.view (txn.view state)) := by
  intro userId user found
  have shown := Db.view_commit other txn state (AuthKey.user userId)
  by_cases held : AuthKey.user userId ∈ other.holds
  · rw [if_pos held] at shown
    exact ⟨user, (lookup_user_congr shown).trans found, rfl, rfl⟩
  · rw [if_neg held] at shown
    have committed : state.users.lookup userId = some user :=
      (lookup_user_congr (Db.view_of_not_held state held)).symm.trans found
    obtain ⟨user', after, standing⟩ := keeps userId user committed
    exact ⟨user', (lookup_user_congr shown).trans after, standing⟩

/-- A transaction that keeps every standing still does so after another one has
committed. -/
theorem keeps_of_commit {other : AuthTxn} {state : AuthStore}
    (keeps : KeepsStanding state (other.view state)) (apart : ∀ k ∈ other.holds, k ∉ txn.holds) :
    KeepsStanding (txn.view state) (other.view (txn.view state)) := by
  intro userId user found
  have shown := Db.view_commit other txn state (AuthKey.user userId)
  by_cases held : AuthKey.user userId ∈ other.holds
  · rw [if_pos held] at shown
    have committed : state.users.lookup userId = some user :=
      (lookup_user_congr (Db.view_of_not_held state (apart _ held))).symm.trans found
    obtain ⟨user', after, standing⟩ := keeps userId user committed
    exact ⟨user', (lookup_user_congr shown).trans after, standing⟩
  · rw [if_neg held] at shown
    exact ⟨user, (lookup_user_congr shown).trans found, rfl, rfl⟩

section Step

variable {primitives : Primitives} {admits : AuthCall → Prop} {time : Nat} {db db' : AuthDb}
  {id : Nat} {txn txn' : AuthTxn}

/-- A step of one transaction. -/
theorem Owned.moved (owned : Owned db) (found : db.txns[id]? = some txn)
    (moves : Db.Moves (authService primitives) time db id txn txn')
    (exclusive : (db.replace id txn').Exclusive) : Owned (db.replace id txn') where
  exclusive := exclusive
  keeps j t present live unwatched := by
    rcases Db.of_getElem?_set found present with ⟨rfl, rfl⟩ | ⟨-, old⟩
    · have before := owned.keeps id txn found moves.live
      cases moves with
      | clock _ _ | snapshot _ _ _ | checked _ _ _ _ _ => exact before unwatched
      | performed _ _ result =>
          obtain ⟨quiet, now⟩ := Bool.or_eq_false_iff.mp unwatched
          exact (before quiet).trans (standing_of_performed result now)
      | aborted _ => simp [Txn.live] at live
    · exact owned.keeps j t old live unwatched
  leaves j t present checked := by
    rcases Db.of_getElem?_set found present with ⟨rfl, rfl⟩ | ⟨-, old⟩
    · cases moves with
      | clock running _ | snapshot running _ _ | performed running _ _ =>
          exact absurd (running.symm.trans checked) (by simp)
      | checked _ _ _ _ holds => exact countActiveOwners_ne_zero.mp (of_decide_eq_true holds)
      | aborted _ => cases checked
    · exact owned.leaves j t old checked
  alone i j t t' present present' checked checked' := by
    -- a transaction that becomes checked finds no other that is
    have first : txn'.status = .checked → ∀ l other, id ≠ l → db.txns[l]? = some other →
        other.status ≠ .checked := by
      intro isChecked l other apart isOther done
      cases moves with
      | clock running _ | snapshot running _ _ | performed running _ _ =>
          exact absurd (running.symm.trans isChecked) (by simp)
      | checked _ _ _ alone _ =>
          exact alone other
            (Db.mem_others.mpr ⟨l, Ne.symm apart, isOther, by simp [Txn.live, done]⟩) done
      | aborted _ => cases isChecked
    rcases Db.of_getElem?_set found present with ⟨rfl, rfl⟩ | ⟨apart, old⟩
    · rcases Db.of_getElem?_set found present' with ⟨same, -⟩ | ⟨apart', old'⟩
      · exact same
      · exact absurd checked' (first checked j t' apart' old')
    · rcases Db.of_getElem?_set found present' with ⟨rfl, rfl⟩ | ⟨-, old'⟩
      · exact absurd checked (first checked' i t apart old)
      · exact owned.alone i j t t' old old' checked checked'

/-- A commit. -/
theorem Owned.committed (owned : Owned db) (found : db.txns[id]? = some txn)
    (ready : txn.status = .checked ∨ (txn.status = .running ∧ txn.watched = false))
    (exclusive : Db.Exclusive { state := txn.view db.state
                                txns := db.txns.set id { txn with status := .committed }
                                history := db.history ++ [id] }) :
    Owned { state := txn.view db.state
            txns := db.txns.set id { txn with status := .committed }
            history := db.history ++ [id] } where
  exclusive := exclusive
  keeps j t present live unwatched := by
    rcases Db.of_getElem?_set found present with ⟨-, rfl⟩ | ⟨apart, old⟩
    · simp [Txn.live] at live
    · have txnLive : txn.live = true := by
        rcases ready with checked | ⟨running, -⟩
        · simp [Txn.live, checked]
        · simp [Txn.live, running]
      exact keeps_of_commit (owned.keeps j t old live unwatched)
        (owned.exclusive j id t txn (Ne.symm apart) old found live txnLive)
  leaves j t present checked := by
    rcases Db.of_getElem?_set found present with ⟨-, rfl⟩ | ⟨apart, old⟩
    · cases checked
    · -- the committed transaction has not been checked, so it kept every standing
      rcases ready with isChecked | ⟨running, unwatched⟩
      · exact absurd (owned.alone id j txn t found old isChecked checked) apart
      · have keeps := owned.keeps id txn found (by simp [Txn.live, running]) unwatched
        exact (standing_of_commit keeps).activeOwner (owned.leaves j t old checked)
  alone i j t t' present present' checked checked' := by
    rcases Db.of_getElem?_set found present with ⟨-, rfl⟩ | ⟨-, old⟩
    · cases checked
    · rcases Db.of_getElem?_set found present' with ⟨-, rfl⟩ | ⟨-, old'⟩
      · cases checked'
      · exact owned.alone i j t t' old old' checked checked'

theorem Owned.effect (owned : Owned db)
    (effect : Db.Effect (authService primitives) admits time db db') : Owned db' := by
  have exclusive := owned.exclusive.effect effect
  cases effect with
  | begun _ =>
      refine ⟨exclusive, ?_, ?_, ?_⟩
      · intro j t present live unwatched
        rcases Db.of_getElem?_append present with ⟨-, rfl⟩ | old
        · exact KeepsStanding.refl db.state
        · exact owned.keeps j t old live unwatched
      · intro j t present checked
        rcases Db.of_getElem?_append present with ⟨-, rfl⟩ | old
        · cases checked
        · exact owned.leaves j t old checked
      · intro i j t t' present present' checked checked'
        rcases Db.of_getElem?_append present with ⟨-, rfl⟩ | old
        · cases checked
        · rcases Db.of_getElem?_append present' with ⟨-, rfl⟩ | old'
          · cases checked'
          · exact owned.alone i j t t' old old' checked checked'
  | moved found moves => exact owned.moved found moves exclusive
  | committed found _ ready => exact owned.committed found ready exclusive

/-- **One step** leaves an active owner where there was one. -/
theorem Owned.activeOwner (owned : Owned db)
    (effect : Db.Effect (authService primitives) admits time db db')
    (before : ActiveOwner db.state) : ActiveOwner db'.state := by
  cases effect with
  | begun _ | moved _ _ => exact before
  | committed found _ ready =>
      rcases ready with checked | ⟨running, unwatched⟩
      · exact owned.leaves _ _ found checked
      · exact (owned.keeps _ _ found (by simp [Txn.live, running]) unwatched).activeOwner before

end Step

theorem owned_inductive (primitives : Primitives) :
    (accountSystem primitives).Inductive fun world => Owned world.db :=
  inductive_onDb Owned.initial fun _ _ owned effect => owned.effect effect

/-! ## The result -/

/-- **There is always an active owner.**  Whatever transactions run at once, once a
committed state has an active owner every later committed state has one. -/
theorem activeOwner_of_leads (primitives : Primitives) {world world' : AccountWorld}
    (reachable : (accountSystem primitives).Reachable world)
    (run : (accountSystem primitives).Leads world world') (owned : ActiveOwner world.db.state) :
    ActiveOwner world'.db.state := by
  have kept : ∀ (s : AccountWorld) (a : AccountAction) (t : AccountWorld), Owned s.db →
      ActiveOwner s.db.state → (accountSystem primitives).step s a = some t →
        ActiveOwner t.db.state := by
    intro s a t good before step
    cases effect_of_step step with
    | idle same _ => exact same ▸ before
    | onDb effect => exact good.activeOwner effect before
  exact run.preserves (owned_inductive primitives) kept
    ((owned_inductive primitives).of_reachable reachable) owned

/-- An owner, signed in by its password alone. -/
def signedIn : List AccountAction :=
  [.begin (.bootstrap 1 "owner" (text "correct horse")) (drawn 1 "a" "s")] ++
    performs 0 [true, false, false] ++ [.commit 0] ++
    [.begin (.login "owner" (text "correct horse") ⟨"login", "ip", 0⟩) (drawn 2 "b" "t")] ++
    performs 1 [false, false, false, true, false] ++ [.commit 1, .resolve "b"]

/-- It demotes itself; the check of the constraint ends the transaction. -/
def demotion : List AccountAction :=
  [.begin (.updateUser
      { sessionId := 2
        userId := 1
        username := "owner"
        role := .owner
        permissions := permissionsForRole .owner
        mfaEnabled := false
        mfaEnrollmentRequired := true
        mfaVerifiedAt := none
        reauthenticatedAt := some 0
        elevatedUntil := some AuthService.reauthenticationTtl
        csrfHash := "b"
        expiresAt := seconds 1209600 } 1 .operator .active 1) (drawn 3 "c" "u")] ++
    performs 2 [true, true, false, false, false] ++ [.check 2, .tick 1]

theorem activeOwner_of_leads_demotion : ∃ world world',
    (accountSystem plain).exec (.start { totpEnabled := false }) signedIn = some world ∧
      (accountSystem plain).exec world demotion = some world' ∧
        ActiveOwner world'.db.state := by
  have ran : ((accountSystem plain).exec (.start { totpEnabled := false }) signedIn).bind
      (fun world => ((accountSystem plain).exec world demotion).map fun _ =>
        AuthRepository.countActiveOwners world.db.state) = some 1 := by
    decide +kernel
  obtain ⟨world, signed, rest⟩ := Option.bind_eq_some_iff.mp ran
  obtain ⟨world', demoted, one⟩ := Option.map_eq_some_iff.mp rest
  refine ⟨world, world', signed, demoted, ?_⟩
  exact activeOwner_of_leads plain ⟨.start { totpEnabled := false }, ⟨_, rfl⟩,
    System.leads_of_exec signed⟩ (System.leads_of_exec demoted)
    (countActiveOwners_ne_zero.mp (by rw [one]; decide))

end OpsComposer.Accounts
