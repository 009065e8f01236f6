import OpsComposer.Accounts.Activations

/-!
# The life of a user

A user that is not the bootstrapped owner becomes active by an activation code of its own, which
nobody has consumed before (`activates_of_first`, `settled_inductive`), and `update_user` makes only
those active who have been (`activated_of_updateUser`).

`update_user` decides on a user that it has read without a lock, and its update asks for a version
only, which the client names.  When an activation commits in between, and the client has named
the version that it leaves, the update makes the user pending again (`userLifecycle_fails`).  In runs
in which that does not happen no user does (`hasLeft_of_leads`).
-/

set_option autoImplicit false

namespace OpsComposer.Accounts

open Domain Foundations Repositories Services

/-! ## Users -/

/-- The user has left `PENDING_ACTIVATION`. -/
def HasLeft (store : AuthStore) (userId : Uuid) : Prop :=
  ∃ user ∈ store.users.lookup userId, user.status ≠ .pendingActivation

/-- There is an active account with the identifier. -/
def IsActive (store : AuthStore) (userId : Uuid) : Prop :=
  ∃ user ∈ store.users.lookup userId, user.status = .active

/-- The user has not been activated, if there is one. -/
def NotActivated (store : AuthStore) (userId : Uuid) : Prop :=
  ∀ user ∈ store.users.lookup userId, user.activatedAt = none

instance (store : AuthStore) (userId : Uuid) : Decidable (HasLeft store userId) := by
  unfold HasLeft
  infer_instance

instance (store : AuthStore) (userId : Uuid) : Decidable (IsActive store userId) := by
  unfold IsActive
  infer_instance

/-- The users of this id that `get_user` has returned. -/
def reads (log : List AuthEvent) (userId : Uuid) : List User :=
  log.filterMap fun
    | .ran (.getUser read) (.user before :: _) _ => if read = userId then some before else none
    | _ => none

/-- The user that a request wants to be pending. -/
def pends? : AuthRequest → Option Uuid
  | .updateUser _ userId _ .pendingActivation _ => some userId
  | _ => none

/-- Whenever an update to `PENDING_ACTIVATION` commits, the user still has the status that
`update_user` has read. -/
def ReadIsCurrent (world : AccountWorld) : AccountAction → Prop
  | .commit id =>
      ∀ txn ∈ world.db.txns[id]?, ∀ userId ∈ pends? txn.call.request,
        ∀ before ∈ reads txn.log userId, ∀ user ∈ world.db.state.users.lookup userId,
          user.status = before.status
  | _ => True

instance (world : AccountWorld) (action : AccountAction) :
    Decidable (ReadIsCurrent world action) := by
  cases action <;> unfold ReadIsCurrent <;> infer_instance

theorem mem_reads {log : List AuthEvent} {userId : Uuid} {before : User}
    (read : HasRead log userId before) : before ∈ reads log userId := by
  obtain ⟨rows, seen, ran⟩ := read
  exact List.mem_filterMap.mpr ⟨_, ran, if_pos rfl⟩

/-! ## Steps -/

section Steps

variable {primitives : Primitives} {world world' : AccountWorld} {action : AccountAction}
  {userId : Uuid} {id : Nat} {txn : AuthTxn}

/-- The commit that has turned a user. -/
structure Turning (primitives : Primitives) (world world' : AccountWorld) (action : AccountAction)
    (userId : Uuid) (id : Nat) (txn : AuthTxn) (new : User) : Prop where
  commits : action = .commit id
  found : world.db.txns[id]? = some txn
  live : txn.live = true
  after : world'.db.state = txn.view world.db.state
  isNew : world'.db.state.users.lookup userId = some new
  turn : UserTurn primitives txn.call txn.log (.user userId)
    ((world.db.state.users.lookup userId).map .user) (some (.user new))

/-- **A step** leaves a user as it is, or is the commit of a transaction that has turned it. -/
theorem turning_of_step (governed : Governed primitives world.db)
    (step : (accountSystem primitives).step world action = some world') (userId : Uuid) :
    world'.db.state.users.lookup userId = world.db.state.users.lookup userId ∨
      ∃ id txn new, Turning primitives world world' action userId id txn new := by
  cases effect_of_step step with
  | idle same _ => exact .inl (by rw [same])
  | @onDb db effect =>
      rcases governed.turned.state effect (.user userId) with same | ⟨id, txn, answer, found, -, live,
        grown, after, turn⟩
      · exact .inl (lookup_user_congr same)
      · change UserTurn primitives txn.call txn.log (.user userId)
          ((world.db.state.users.lookup userId).map .user)
          ((db.state.users.lookup userId).map .user) at turn
        have commits := commit_of_history step grown
        cases isNew : db.state.users.lookup userId with
        | none =>
            rw [isNew] at turn
            generalize (world.db.state.users.lookup userId).map AuthRow.user = old? at turn
            cases turn with
            | other notUser => exact absurd rfl (notUser _)
        | some new =>
            rw [isNew] at turn
            exact .inr ⟨id, txn, new, commits, found, live, after, isNew, turn⟩

/-- A user that `update_user` has read as activated still is. -/
theorem activated_of_read (governed : Governed primitives world.db) {before new : User}
    (turning : Turning primitives world world' action userId id txn new)
    (read : HasRead txn.log userId before) (activated : before.activatedAt ≠ none) :
    new.activatedAt ≠ none := by
  obtain ⟨rows, seen, ran⟩ := read
  obtain ⟨k, rfl, fact⟩ := governed.recalled id txn turning.found turning.live _ _ _ ran _
    List.mem_cons_self
  obtain ⟨shown, isShown, still⟩ := fact activated
  rw [← turning.after, lookup_user] at isShown
  obtain rfl := Option.some.inj (isShown.symm.trans turning.isNew)
  exact still

/-- **One step**: a user that has left stays away when the reading is current. -/
theorem left_of_step (governed : Governed primitives world.db)
    (current : ReadIsCurrent world action)
    (step : (accountSystem primitives).step world action = some world')
    (left : HasLeft world.db.state userId) : HasLeft world'.db.state userId := by
  obtain ⟨user, found, away⟩ := left
  rcases turning_of_step governed step userId with same | ⟨id, txn, new, turning⟩
  · exact ⟨user, same.trans found, away⟩
  · refine ⟨new, turning.isNew, fun isPending => ?_⟩
    have turn := turning.turn
    rw [show world.db.state.users.lookup userId = some user from found] at turn
    cases turn with
    | other notUser => exact absurd rfl (notUser _)
    | kept status _ => exact away (status.symm.trans isPending)
    | activated _ _ _ _ isActive _ => exact nomatch isActive.symm.trans isPending
    | updated request read may isStatus _ =>
        obtain rfl := isStatus.symm.trans isPending
        obtain rfl := turning.commits
        have status := current txn turning.found userId (by rw [request]; rfl) _ (mem_reads read)
          user found
        exact away (status.trans (may.notReturned rfl))

/-- **No way back**, in runs in which updates to `PENDING_ACTIVATION` are current. -/
theorem hasLeft_of_leads
    (reached : ((accountSystem primitives).restrict ReadIsCurrent).Reachable world)
    (run : ((accountSystem primitives).restrict ReadIsCurrent).Leads world world')
    (left : HasLeft world.db.state userId) : HasLeft world'.db.state userId := by
  have known := (governed_inductive primitives).restrict ReadIsCurrent
  have kept : ∀ (s : AccountWorld) (a : AccountAction) (t : AccountWorld),
      Governed primitives s.db → HasLeft s.db.state userId →
        ((accountSystem primitives).restrict ReadIsCurrent).step s a = some t →
          HasLeft t.db.state userId := by
    intro s a t governed before step
    obtain ⟨current, step⟩ := System.restrict_step.mp step
    exact left_of_step governed current step before
  exact run.preserves known kept (known.of_reachable reached) left

/-! ## Activation -/

/-- A code of the user, unconsumed and unexpired, that the commit of an activation consumes. -/
def ConsumesCode (primitives : Primitives) (before after : AuthStore) (userId : Uuid)
    (txn : AuthTxn) : Prop :=
  ∃ activationCode password now, ∃ token : ActivationToken,
    txn.call.request = .activate activationCode password ∧ .clock now ∈ txn.log ∧
      before.activationTokens.lookup token.activationTokenId = some token ∧
        token.userId = userId ∧ token.tokenHash = primitives.hashToken activationCode ∧
          token.consumedAt = none ∧ now < token.expiresAt ∧
            after.activationTokens.lookup token.activationTokenId =
              some { token with consumedAt := some now }

theorem lookup_token {store : AuthStore} {activationTokenId : Uuid} {token : ActivationToken} :
    RowStore.lookup store (.activationToken activationTokenId) = some (.activationToken token) ↔
      store.activationTokens.lookup activationTokenId = some token := by
  show (store.activationTokens.lookup activationTokenId).map AuthRow.activationToken = _ ↔ _
  simp

/-- What an activation has consumed. -/
theorem consumes_of_spent {db : AuthDb} (governed : Governed primitives db)
    (found : db.txns[id]? = some txn) (live : txn.live = true) {activationCode : String}
    {password : Text} (request : txn.call.request = .activate activationCode password) {now : Nat}
    {grant : User} (spent : HasSpent txn.log (primitives.hashToken activationCode) now grant) :
    ConsumesCode primitives db.state (txn.view db.state) grant.userId txn := by
  obtain ⟨rows, seen, ran⟩ := spent
  obtain ⟨earlier, later, split⟩ := List.append_of_mem ran
  have legal := (governed.logged id txn found).here.2 earlier _ _ seen later split
  obtain ⟨k, token, rfl, isCommitted, owner, hash, isLive, unexpired, isSeen⟩ :=
    governed.recalled id txn found live _ _ _ ran _ List.mem_cons_self
  refine ⟨activationCode, password, now, token, request, ?_, lookup_token.mp isCommitted, owner,
    hash, isLive, unexpired, lookup_token.mp isSeen⟩
  rw [split, show earlier = [.clock now] from legal]
  exact List.mem_cons_self

/-- **One step** of a user that has never been active: it is not activated, or it is active by
now. -/
theorem notActivated_of_step (governed : Governed primitives world.db)
    (step : (accountSystem primitives).step world action = some world')
    (before : NotActivated world.db.state userId) :
    IsActive world'.db.state userId ∨ NotActivated world'.db.state userId := by
  rcases turning_of_step governed step userId with same | ⟨id, txn, new, turning⟩
  · right
    intro user found
    exact before user (same.symm.trans found)
  · have never : new.activatedAt = none → NotActivated world'.db.state userId := by
      intro none user found
      obtain rfl := Option.some.inj (turning.isNew.symm.trans found)
      exact none
    have turn := turning.turn
    generalize isOld : (world.db.state.users.lookup userId).map AuthRow.user = old? at turn
    cases turn with
    | other notUser => exact absurd rfl (notUser _)
    | kept _ activatedAt =>
        obtain ⟨old, found, same⟩ := Option.map_eq_some_iff.mp isOld
        obtain rfl := AuthRow.user.inj same
        exact .inr (never (activatedAt.trans (before old found)))
    | created _ _ none => exact .inr (never none)
    | bootstrapped _ isActive | activated _ _ _ _ isActive _ =>
        exact .inl ⟨new, turning.isNew, isActive⟩
    | updated _ _ _ _ same =>
        obtain ⟨old, found, isUser⟩ := Option.map_eq_some_iff.mp isOld
        obtain rfl := AuthRow.user.inj isUser
        exact .inr (never (same.trans (before old found)))

/-- The bootstrapping of a user, or an activation with a code of the user. -/
def Activates (primitives : Primitives) (world world' : AccountWorld) (userId : Uuid) :
    AccountAction → Prop
  | .commit id => ∃ txn ∈ world.db.txns[id]?,
      (∃ username password, txn.call.request = .bootstrap userId username password) ∨
        ConsumesCode primitives world.db.state world'.db.state userId txn
  | _ => False

/-- **The first step** after which a user is active activates it. -/
theorem activates_of_step (governed : Governed primitives world.db)
    (step : (accountSystem primitives).step world action = some world')
    (before : NotActivated world.db.state userId) (inactive : ¬ IsActive world.db.state userId)
    (active : IsActive world'.db.state userId) :
    Activates primitives world world' userId action := by
  obtain ⟨user, isUser, isActive⟩ := active
  rcases turning_of_step governed step userId with same | ⟨id, txn, new, turning⟩
  · exact absurd ⟨user, same.symm.trans isUser, isActive⟩ inactive
  · obtain rfl := Option.some.inj (turning.isNew.symm.trans isUser)
    obtain rfl := turning.commits
    refine ⟨txn, turning.found, ?_⟩
    have turn := turning.turn
    generalize isOld : (world.db.state.users.lookup userId).map AuthRow.user = old? at turn
    cases turn with
    | other notUser => exact absurd rfl (notUser _)
    | kept status _ =>
        obtain ⟨old, found, same⟩ := Option.map_eq_some_iff.mp isOld
        obtain rfl := AuthRow.user.inj same
        exact absurd ⟨old, found, status.symm.trans isActive⟩ inactive
    | created _ isPending _ => exact nomatch isPending.symm.trans isActive
    | bootstrapped request _ => exact .inl ⟨_, _, request⟩
    | activated request spent named _ _ _ =>
        right
        rw [turning.after, ← named]
        exact consumes_of_spent governed turning.found turning.live request spent
    | updated _ read may isStatus same =>
        -- the user that it has read was activated
        obtain ⟨old, found, isRow⟩ := Option.map_eq_some_iff.mp isOld
        obtain rfl := AuthRow.user.inj isRow
        have activated := may.hasActivated (isStatus.symm.trans isActive)
        have still := activated_of_read governed turning read activated
        rw [same] at still
        exact absurd (before old found) still

/-- Up to now the user has not been active. -/
abbrev NeverActive (userId : Uuid) (world : AccountWorld) (_ : AccountAction) : Prop :=
  ¬ IsActive world.db.state userId

/-- **The first time** that a user is active. -/
theorem activates_of_first
    (reached : ((accountSystem primitives).restrict (NeverActive userId)).Reachable world)
    (inactive : ¬ IsActive world.db.state userId)
    (step : (accountSystem primitives).step world action = some world')
    (active : IsActive world'.db.state userId) :
    Activates primitives world world' userId action := by
  have known := (governed_inductive primitives).restrict (NeverActive userId)
  have initial : ∀ start : AccountWorld, (accountSystem primitives).init start →
      IsActive start.db.state userId ∨ NotActivated start.db.state userId := by
    rintro start ⟨settings, rfl⟩
    right
    intro user found
    cases found
  have kept : ∀ (s : AccountWorld) (a : AccountAction) (t : AccountWorld), Governed primitives s.db →
      IsActive s.db.state userId ∨ NotActivated s.db.state userId →
        ((accountSystem primitives).restrict (NeverActive userId)).step s a = some t →
          IsActive t.db.state userId ∨ NotActivated t.db.state userId := by
    intro s a t governed before step
    obtain ⟨inactive, step⟩ := System.restrict_step.mp step
    rcases before with now | before
    · exact absurd now inactive
    · exact notActivated_of_step governed step before
  obtain ⟨governed, now | before⟩ := (known.strengthen initial kept).of_reachable reached
  · exact absurd now inactive
  · exact activates_of_step governed step before inactive active

/-- **An update** makes only those active that have been activated. -/
theorem activated_of_updateUser (reached : (accountSystem primitives).Reachable world)
    (found : world.db.txns[id]? = some txn) {actor : SessionPrincipal} {target : Uuid}
    {role : UserRole} {status : UserStatus} {expectedVersion : Nat}
    (request : txn.call.request = .updateUser actor target role status expectedVersion)
    (step : (accountSystem primitives).step world (.commit id) = some world')
    (before : NotActivated world.db.state userId) (inactive : ¬ IsActive world.db.state userId) :
    ¬ IsActive world'.db.state userId := by
  intro active
  have governed := (governed_inductive primitives).of_reachable reached
  obtain ⟨other, isOther, activation⟩ := activates_of_step governed step before inactive active
  obtain rfl := Option.some.inj (found.symm.trans isOther)
  rcases activation with ⟨username, password, request'⟩ | ⟨code, password, _, _, request', _⟩
  · exact nomatch request.symm.trans request'
  · exact nomatch request.symm.trans request'

end Steps

/-! ## Activation codes -/

section Codes

variable {primitives : Primitives} {db db' : AuthDb}

/-- A committed activation with a code of this hash. -/
def Consumed (primitives : Primitives) (db : AuthDb) (tokenHash : String) (id : Nat) : Prop :=
  ∃ txn : AuthTxn, db.txns[id]? = some txn ∧ txn.status = .committed ∧
    ∃ activationCode password, txn.call.request = .activate activationCode password ∧
      primitives.hashToken activationCode = tokenHash

/-- Every committed activation has spent the one code of its hash. -/
structure Spent (primitives : Primitives) (db : AuthDb) : Prop where
  consumed : ∀ tokenHash id, Consumed primitives db tokenHash id →
    ∃ activationTokenId token, db.state.activationTokens.lookup activationTokenId = some token ∧
      token.tokenHash = tokenHash ∧ token.consumedAt ≠ none
  once : ∀ tokenHash id id', Consumed primitives db tokenHash id →
    Consumed primitives db tokenHash id' → id = id'

variable {token : ActivationToken} {admits : AuthCall → Prop} {id time : Nat}
  {activationTokenId : Uuid}

/-- Codes of one hash are one, and so are unconsumed codes of one user. -/
theorem token_unique {store : AuthStore}
    (unclashing : Unclashing (AuthRow.clash primitives.lower) store)
    {activationTokenId' : Uuid} {token' : ActivationToken}
    (found : store.activationTokens.lookup activationTokenId = some token)
    (found' : store.activationTokens.lookup activationTokenId' = some token')
    (clash : token.tokenHash = token'.tokenHash ∨
      (token.userId = token'.userId ∧ token.consumedAt = none ∧ token'.consumedAt = none)) :
    activationTokenId = activationTokenId' := by
  by_contra apart
  have none := unclashing (.activationToken activationTokenId) (.activationToken activationTokenId')
    _ _ (by simpa using apart) (lookup_token.mpr found) (lookup_token.mpr found')
  exact absurd clash (of_decide_eq_false none)

/-- Consumed codes stay as they are. -/
theorem Spent.stays (governed : Governed primitives db)
    (effect : Db.Effect (authService primitives) admits time db db')
    (found : db.state.activationTokens.lookup activationTokenId = some token)
    (consumed : token.consumedAt ≠ none) :
    db'.state.activationTokens.lookup activationTokenId = some token := by
  have ages := governed.evolves.state Ages.refl effect (.activationToken activationTokenId)
  rw [lookup_token.mpr found] at ages
  generalize isNew : RowStore.lookup db'.state (AuthKey.activationToken activationTokenId) = new?
    at ages
  cases ages with
  | token same _ => rw [same consumed, lookup_token] at isNew; exact isNew
  | other _ notToken => exact absurd rfl (notToken _)

/-- **The commit** of an activation consumes a live code of its hash. -/
theorem consumes_of_done (governed : Governed primitives db) {txn : AuthTxn}
    (found : db.txns[id]? = some txn) (live : txn.live = true) {answer : Unit}
    (stands : txn.program = .done answer) {activationCode : String} {password : Text}
    (request : txn.call.request = .activate activationCode password) :
    ∃ userId, ConsumesCode primitives db.state (txn.view db.state) userId txn := by
  obtain ⟨now, grant, spent⟩ := (governed.lawful id txn found).here.2 answer stands activationCode
    password request
  exact ⟨grant.userId, consumes_of_spent governed found live request spent⟩

/-- What is consumed was so before, or its code was live and has just been consumed. -/
theorem Consumed.before (governed : Governed primitives db)
    (effect : Db.Effect (authService primitives) admits time db db') {tokenHash : String}
    (consumed : Consumed primitives db' tokenHash id) :
    Consumed primitives db tokenHash id ∨
      (db'.history = db.history ++ [id] ∧ ∃ activationTokenId token now,
        db.state.activationTokens.lookup activationTokenId = some token ∧
          token.tokenHash = tokenHash ∧ token.consumedAt = none ∧
            db'.state.activationTokens.lookup activationTokenId =
              some { token with consumedAt := some now }) := by
  obtain ⟨t, present, done, activationCode, password, request, hash⟩ := consumed
  rcases effect.committed_before present done with old | ⟨txn, answer, found, live, stands, rfl,
    after, grown⟩
  · exact .inl ⟨t, old, done, activationCode, password, request, hash⟩
  · obtain ⟨userId, code, password', now, token, request', -, isCommitted, -, hash', isLive, -,
      isSeen⟩ := consumes_of_done governed found live stands request
    obtain ⟨rfl, -⟩ := AuthRequest.activate.inj (request.symm.trans request')
    refine .inr ⟨grown, token.activationTokenId, token, now, isCommitted, hash'.trans hash, isLive, ?_⟩
    rw [after]
    exact isSeen

/-- The code of a committed activation is not live. -/
theorem Spent.notLive (governed : Governed primitives db) (spent : Spent primitives db)
    {tokenHash : String} (before : Consumed primitives db tokenHash id)
    (found : db.state.activationTokens.lookup activationTokenId = some token)
    (hash : token.tokenHash = tokenHash) : token.consumedAt ≠ none := by
  obtain ⟨activationTokenId', token', found', hash', consumed⟩ := spent.consumed tokenHash id before
  obtain rfl := token_unique governed.unclashed.committed found found' (.inl (hash.trans hash'.symm))
  obtain rfl := Option.some.inj (found.symm.trans found')
  exact consumed

/-- **One step**: a code that is consumed has not been consumed before. -/
theorem Spent.effect (governed : Governed primitives db) (spent : Spent primitives db)
    (effect : Db.Effect (authService primitives) admits time db db') : Spent primitives db' where
  consumed tokenHash id consumed := by
    rcases consumed.before governed effect with before | ⟨-, activationTokenId, token, now, -, hash, -,
      after⟩
    · obtain ⟨activationTokenId, token, found, hash, isConsumed⟩ :=
        spent.consumed tokenHash id before
      exact ⟨activationTokenId, token, Spent.stays governed effect found isConsumed, hash, isConsumed⟩
    · exact ⟨activationTokenId, _, after, hash, by simp⟩
  once tokenHash id id' consumed consumed' := by
    rcases consumed.before governed effect with before | ⟨grown, _, token, _, found, hash, isLive, -⟩
    · rcases consumed'.before governed effect with before' | ⟨-, _, token, _, found, hash, isLive, -⟩
      · exact spent.once tokenHash id id' before before'
      · exact absurd isLive (spent.notLive governed before found hash)
    · rcases consumed'.before governed effect with before' | ⟨grown', -⟩
      · exact absurd isLive (spent.notLive governed before' found hash)
      · simpa using grown.symm.trans grown'

/-- What is known of every database of accounts and of the codes that are spent in it. -/
structure Settled (primitives : Primitives) (db : AuthDb) : Prop where
  governed : Governed primitives db
  spent : Spent primitives db

theorem settled_inductive (primitives : Primitives) :
    (accountSystem primitives).Inductive fun world => Settled primitives world.db := by
  have initial : Spent primitives { state := .empty } := by
    constructor
    · rintro tokenHash id ⟨txn, found, -⟩
      simp at found
    · rintro tokenHash id id' ⟨txn, found, -⟩
      simp at found
  refine inductive_onDb ⟨.initial primitives, initial⟩ ?_
  rintro world db ⟨governed, spent⟩ effect
  exact ⟨governed.effect effect, Spent.effect governed spent effect⟩

end Codes

/-! ## The result -/

/-- **The life of users.**  In runs in which updates to `PENDING_ACTIVATION` are current no user
returns to that status.  In every run the step after which a user is active for the first time
bootstraps it or consumes a live code of it, codes are consumed once and a user has one live
code at most, and `update_user` makes no user active that has not been activated. -/
theorem userLifecycle (primitives : Primitives) (userId : Uuid) :
    (∀ world world', ((accountSystem primitives).restrict ReadIsCurrent).Reachable world →
        ((accountSystem primitives).restrict ReadIsCurrent).Leads world world' →
          HasLeft world.db.state userId → HasLeft world'.db.state userId) ∧
      (∀ world action world',
        ((accountSystem primitives).restrict (NeverActive userId)).Reachable world →
          ¬ IsActive world.db.state userId →
            (accountSystem primitives).step world action = some world' →
              IsActive world'.db.state userId →
                Activates primitives world world' userId action) ∧
        ∀ world, (accountSystem primitives).Reachable world →
          (∀ tokenHash id id', Consumed primitives world.db tokenHash id →
            Consumed primitives world.db tokenHash id' → id = id') ∧
          (∀ activationTokenId activationTokenId' token token',
            world.db.state.activationTokens.lookup activationTokenId = some token →
              world.db.state.activationTokens.lookup activationTokenId' = some token' →
                token.userId = userId → token'.userId = userId → token.consumedAt = none →
                  token'.consumedAt = none → activationTokenId = activationTokenId') ∧
          ∀ id txn actor target role status expectedVersion world',
            world.db.txns[id]? = some txn →
              txn.call.request = .updateUser actor target role status expectedVersion →
                (accountSystem primitives).step world (.commit id) = some world' →
                  NotActivated world.db.state userId → ¬ IsActive world.db.state userId →
                    ¬ IsActive world'.db.state userId := by
  refine ⟨fun world world' reached run left => hasLeft_of_leads reached run left,
    fun world action world' reached inactive step active =>
      activates_of_first reached inactive step active, fun world reached => ?_⟩
  obtain ⟨governed, spent⟩ := (settled_inductive primitives).of_reachable reached
  refine ⟨spent.once, ?_, ?_⟩
  · intro activationTokenId activationTokenId' token token' found found' owner owner' live live'
    exact token_unique governed.unclashed.committed found found'
      (.inr ⟨owner.trans owner'.symm, live, live'⟩)
  · intro id txn actor target role status expectedVersion world' found request step before inactive
    exact activated_of_updateUser reached found request step before inactive

/-! ## Two lives -/

/-- The owner that has signed in. -/
def ownerPrincipal : SessionPrincipal where
  sessionId := 2
  userId := 1
  username := "owner"
  role := .owner
  permissions := permissionsForRole .owner
  mfaEnabled := false
  mfaEnrollmentRequired := true
  mfaVerifiedAt := none
  reauthenticatedAt := some 0
  elevatedUntil := some AuthService.reauthenticationTtl
  csrfHash := "b"
  expiresAt := seconds 1209600

/-- It creates a user. -/
def creation : List AccountAction :=
  [.begin (.createUser ownerPrincipal "member" .operator 2 5 "code") (drawn 3 "c" "u")] ++
    performs 2 [true, true, false, false] ++ [.commit 2]

/-- The user activates itself, up to the commit. -/
def activation (id : Nat) : List AccountAction :=
  [.begin (.activate "code" (text "battery staple")) (drawn 4 "d" "v")] ++
    performs id [true, false, false, true, false] ++ [.check id]

/-- An update of the user, up to what it has read, and from there on. -/
def reading (id : Nat) (status : UserStatus) : List AccountAction :=
  [.begin (.updateUser ownerPrincipal 2 .operator status 2) (drawn 5 "e" "w")] ++
    performs id [true, true, false]

/-- The steps of an update of a user, up to its commit. -/
def updating (id : Nat) : List AccountAction :=
  performs id [false, false] ++ [.check id, .commit id]

/-- The user becomes active by its code, and when the owner disables it, it has left. -/
theorem userLifecycle_member : ∃ before world world',
    (accountSystem plain).exec (.start { totpEnabled := false })
        (signedIn ++ creation ++ activation 3) = some before ∧
      (accountSystem plain).step before (.commit 3) = some world ∧
        (accountSystem plain).exec world (reading 4 .disabled ++ updating 4) = some world' ∧
          Activates plain before world 2 (.commit 3) ∧ HasLeft world'.db.state 2 := by
  have ran : ((accountSystem plain).exec (.start { totpEnabled := false })
      (signedIn ++ creation ++ activation 3)).any (fun before =>
        decide (¬ IsActive before.db.state 2 ∧ ReadIsCurrent before (.commit 3)) &&
          ((accountSystem plain).step before (.commit 3)).any fun world =>
            decide (IsActive world.db.state 2 ∧ HasLeft world.db.state 2 ∧
              (accountSystem plain).Along ReadIsCurrent world
                (reading 4 .disabled ++ updating 4)) &&
              ((accountSystem plain).exec world (reading 4 .disabled ++ updating 4)).isSome) =
        true := by
    decide +kernel
  have never : (accountSystem plain).Along (NeverActive 2) (.start { totpEnabled := false })
      (signedIn ++ creation ++ activation 3) := by
    decide +kernel
  have current : (accountSystem plain).Along ReadIsCurrent (.start { totpEnabled := false })
      (signedIn ++ creation ++ activation 3) := by
    decide +kernel
  obtain ⟨before, started, facts⟩ := (Option.any_eq_true _ _).mp ran
  obtain ⟨now, facts⟩ := Bool.and_eq_true_iff.mp facts
  obtain ⟨inactive, commits⟩ := of_decide_eq_true now
  obtain ⟨world, step, facts⟩ := (Option.any_eq_true _ _).mp facts
  obtain ⟨now, ends⟩ := Bool.and_eq_true_iff.mp facts
  obtain ⟨active, left, along⟩ := of_decide_eq_true now
  obtain ⟨world', updated⟩ := Option.isSome_iff_exists.mp ends
  have start : (accountSystem plain).init (.start { totpEnabled := false }) := ⟨_, rfl⟩
  have reached : ((accountSystem plain).restrict ReadIsCurrent).Reachable world := by
    have commit := System.restrict_step.mpr ⟨commits, step⟩
    exact ⟨_, start, (System.leads_restrict_of_exec started current).tail commit⟩
  obtain ⟨stays, first, -⟩ := userLifecycle plain 2
  refine ⟨before, world, world', started, step, updated, ?_, ?_⟩
  · exact first before (.commit 3) world
      ⟨_, start, System.leads_restrict_of_exec started never⟩ inactive step active
  · exact stays world world' reached (System.leads_restrict_of_exec updated along) left

/-- When `update_user` has read the user before the activation commits, and the client has named
the version that the activation leaves, the user is pending again. -/
theorem userLifecycle_fails :
    ¬ ∀ (primitives : Primitives) (userId : Uuid) (world world' : AccountWorld),
    (accountSystem primitives).Reachable world → (accountSystem primitives).Leads world world' →
      HasLeft world.db.state userId → HasLeft world'.db.state userId := by
  have ran : ((accountSystem plain).exec (.start { totpEnabled := false })
      (signedIn ++ creation ++ reading 3 .pendingActivation ++ activation 4 ++ [.commit 4])).any
        (fun world => decide (HasLeft world.db.state 2) &&
          ((accountSystem plain).exec world (updating 3)).any fun world' =>
            decide (¬ HasLeft world'.db.state 2)) = true := by
    decide +kernel
  obtain ⟨world, activated, facts⟩ := (Option.any_eq_true _ _).mp ran
  obtain ⟨left, facts⟩ := Bool.and_eq_true_iff.mp facts
  obtain ⟨world', updated, returned⟩ := (Option.any_eq_true _ _).mp facts
  intro stays
  refine absurd ?_ (of_decide_eq_true returned)
  exact stays plain 2 world world' ⟨_, ⟨_, rfl⟩, System.leads_of_exec activated⟩
    (System.leads_of_exec updated) (of_decide_eq_true left)

end OpsComposer.Accounts
