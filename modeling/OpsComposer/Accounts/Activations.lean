import OpsComposer.Accounts.Legality
import OpsComposer.Accounts.Owners
import OpsComposer.Foundations.RowTurns
import OpsComposer.Foundations.UniqueIndexes

/-!
# What becomes of users and their activation codes

* `UserChange` — what a statement does to the row of a user;
* `UserTurn` — what an unfinished transaction has made of a user, by its call and its log;
* `Recollection` — what the rows that `get_user` and `consume_activation_token` have returned
  still say when their transaction commits;
* `Governed` — all that is known of every database of accounts, with the unique indexes.
-/

set_option autoImplicit false

namespace OpsComposer.Accounts

open Domain Foundations Repositories Services

/-! ## What a statement does to a user -/

/-- How a statement changes the row of a user. -/
inductive UserChange : AuthStatement → Option AuthRow → Option AuthRow → Prop where
  | added {user : User} : UserChange (.addUser user) none (some (.user user))
  | updated {userId : Uuid} {role : UserRole} {status : UserStatus} {expectedVersion now : Nat}
      {old new : User} (named : old.userId = userId) (isStatus : new.status = status)
      (same : new.activatedAt = old.activatedAt) :
      UserChange (.updateUser userId role status expectedVersion now) (some (.user old))
        (some (.user new))
  | activated {userId : Uuid} {passwordHash : String} {mfaEnrollmentRequired : Bool} {now : Nat}
      {old new : User} (named : old.userId = userId)
      (wasPending : old.status = .pendingActivation) (isActive : new.status = .active)
      (activatedAt : new.activatedAt = some now) :
      UserChange (.activateUser userId passwordHash mfaEnrollmentRequired now) (some (.user old))
        (some (.user new))
  | kept {statement : AuthStatement} {old new : User} (status : new.status = old.status)
      (activatedAt : new.activatedAt = old.activatedAt) :
      UserChange statement (some (.user old)) (some (.user new))

/-- **Inversion** of a statement under the key of a user. -/
theorem userChange_of_change {store : AuthStore} {statement : AuthStatement} {userId : Uuid}
    {before after : Option AuthRow} (change : AuthChange store statement before after)
    (isBefore : ∀ row, before = some row → row.key = .user userId)
    (isAfter : ∀ row, after = some row → row.key = .user userId) :
    UserChange statement before after := by
  cases change with
  | addUser user => exact .added
  | updateUser user named => exact .updated named rfl rfl
  | activateUser user named isPending => exact .activated named isPending rfl rfl
  | updatePasswordHash user _ | endEnrollment user _ | requireEnrollment user _ =>
      exact .kept rfl rfl
  | _ => first
    | exact absurd (isBefore _ rfl) (by simp [AuthRow.key])
    | exact absurd (isAfter _ rfl) (by simp [AuthRow.key])

/-- Users stay, and stay activated; a code that has been consumed stays as it is. -/
inductive Ages : Option AuthRow → Option AuthRow → Prop where
  | user {old new : User} (activated : old.activatedAt ≠ none → new.activatedAt ≠ none) :
      Ages (some (.user old)) (some (.user new))
  | token {old new : ActivationToken} (same : old.consumedAt ≠ none → new = old)
      (hash : new.tokenHash = old.tokenHash) :
      Ages (some (.activationToken old)) (some (.activationToken new))
  | other {old? new? : Option AuthRow} (notUser : ∀ user, old? ≠ some (.user user))
      (notToken : ∀ token, old? ≠ some (.activationToken token)) : Ages old? new?

theorem Ages.refl (row? : Option AuthRow) : Ages row? row? := by
  rcases row? with - | row
  · exact .other (by simp) (by simp)
  · cases row with
    | user user => exact .user id
    | activationToken token => exact .token (fun _ => rfl) rfl
    | _ => exact .other (by simp) (by simp)

theorem Ages.trans {row? middle? last? : Option AuthRow} (first : Ages row? middle?)
    (second : Ages middle? last?) : Ages row? last? := by
  cases first with
  | other notUser notToken => exact .other notUser notToken
  | user activated =>
      cases second with
      | user activated' => exact .user fun before => activated' (activated before)
      | other notUser _ => exact absurd rfl (notUser _)
  | @token old middle same hash =>
      cases second with
      | token same' hash' =>
          refine .token (fun consumed => ?_) (hash'.trans hash)
          rw [same consumed] at same'
          exact same' consumed
      | other _ notToken => exact absurd rfl (notToken _)

/-- Every statement makes rows older. -/
theorem ages_of_changes {lower : String → String} {statement : AuthStatement} {store : AuthStore}
    {before after : Option AuthRow}
    (change : Command.Changes (statement.meaning lower store) before after) :
    Ages before after := by
  cases authChange_of_changes change with
  | updateUser user named | updatePasswordHash user _ | endEnrollment user _
  | requireEnrollment user _ => exact .user id
  | activateUser user _ _ => exact .user fun _ => by simp [AuthRepository.activatedUser]
  | invalidateActivationTokens token =>
      obtain ⟨other, same, met, -⟩ := changes_setRows change
      obtain rfl := AuthRow.activationToken.inj (Option.some.inj same)
      exact .token (fun consumed => absurd (of_decide_eq_true met).2 consumed) rfl
  | consumeActivationToken token =>
      obtain ⟨other, same, met, -⟩ := changes_setRows change
      obtain rfl := AuthRow.activationToken.inj (Option.some.inj same)
      exact .token (fun consumed => absurd (of_decide_eq_true met).2.1 consumed) rfl
  | _ => exact .other (by simp) (by simp)

/-! ## What a transaction has made of a user -/

/-- The row of a user next to the committed one, by the call and its log. -/
inductive UserTurn (primitives : Primitives) (call : AuthCall) (log : List AuthEvent) :
    AuthKey → Option AuthRow → Option AuthRow → Prop where
  | other {k : AuthKey} {old? new? : Option AuthRow} (notUser : ∀ userId, k ≠ .user userId) :
      UserTurn primitives call log k old? new?
  | kept {userId : Uuid} {old new : User} (status : new.status = old.status)
      (activatedAt : new.activatedAt = old.activatedAt) :
      UserTurn primitives call log (.user userId) (some (.user old)) (some (.user new))
  | created {userId : Uuid} {actor : SessionPrincipal} {username : String} {role : UserRole}
      {activationTokenId : Uuid} {activationCode : String} {user : User}
      (request : call.request =
        .createUser actor username role userId activationTokenId activationCode)
      (isPending : user.status = .pendingActivation) (never : user.activatedAt = none) :
      UserTurn primitives call log (.user userId) none (some (.user user))
  | bootstrapped {userId : Uuid} {username : String} {password : Text} {user : User}
      (request : call.request = .bootstrap userId username password)
      (isActive : user.status = .active) :
      UserTurn primitives call log (.user userId) none (some (.user user))
  | activated {userId : Uuid} {activationCode : String} {password : Text} {now : Nat}
      {grant old new : User}
      (request : call.request = .activate activationCode password)
      (spent : HasSpent log (primitives.hashToken activationCode) now grant)
      (named : grant.userId = userId) (wasPending : old.status = .pendingActivation)
      (isActive : new.status = .active) (activatedAt : new.activatedAt = some now) :
      UserTurn primitives call log (.user userId) (some (.user old)) (some (.user new))
  | updated {userId : Uuid} {actor : SessionPrincipal} {role : UserRole} {status : UserStatus}
      {expectedVersion : Nat} {before old new : User}
      (request : call.request = .updateUser actor userId role status expectedVersion)
      (read : HasRead log userId before) (may : MayBecome before status)
      (isStatus : new.status = status) (same : new.activatedAt = old.activatedAt) :
      UserTurn primitives call log (.user userId) (some (.user old)) (some (.user new))

section Turns

variable {primitives : Primitives} {call : AuthCall} {log : List AuthEvent} {k : AuthKey}
  {userId : Uuid} {statement : AuthStatement} {old? mid? new? : Option AuthRow}

theorem UserTurn.longer (turn : UserTurn primitives call log k old? new?) (event : AuthEvent) :
    UserTurn primitives call (log ++ [event]) k old? new? := by
  cases turn with
  | other notUser => exact .other notUser
  | kept status activatedAt => exact .kept status activatedAt
  | created request isPending never => exact .created request isPending never
  | bootstrapped request isActive => exact .bootstrapped request isActive
  | activated request spent named wasPending isActive activatedAt =>
      exact .activated request (spent.longer event) named wasPending isActive activatedAt
  | updated request read may isStatus same =>
      exact .updated request (read.longer event) may isStatus same

/-- **One statement**, from what the transaction has made of the user so far. -/
theorem UserTurn.performed (event : AuthEvent) (legal : Legal primitives call log statement)
    (before : mid? = old? ∨ UserTurn primitives call log (.user userId) old? mid?)
    (isMid : ∀ row, mid? = some row → row.key = .user userId)
    (isNew : ∀ row, new? = some row → row.key = .user userId)
    (change : UserChange statement mid? new?) :
    UserTurn primitives call (log ++ [event]) (.user userId) old? new? := by
  cases change with
  | @added user =>
      obtain rfl : user.userId = userId := AuthKey.user.inj (isNew _ rfl)
      rcases before with rfl | turn
      · rcases legal with ⟨isPending, never, actor, username, role, _, _, request⟩ |
          ⟨isActive, username, password, request⟩
        · exact .created request isPending never
        · exact .bootstrapped request isActive
      · cases turn with
        | other notUser => exact absurd rfl (notUser _)
  | @updated named role status expectedVersion now mid new isNamed isStatus same =>
      obtain rfl : mid.userId = userId := AuthKey.user.inj (isMid _ rfl)
      subst isNamed
      obtain ⟨⟨actor, request⟩, read, hasRead, may⟩ := legal
      have hasRead := hasRead.longer event
      rcases before with rfl | turn
      · exact .updated request hasRead may isStatus same
      · cases turn with
        | other notUser => exact absurd rfl (notUser _)
        | kept _ activatedAt => exact .updated request hasRead may isStatus (same.trans activatedAt)
        | created request' _ _ | bootstrapped request' _ | activated request' _ _ _ _ _ =>
            exact nomatch request.symm.trans request'
        | updated _ _ _ _ same' => exact .updated request hasRead may isStatus (same.trans same')
  | @activated named passwordHash mfaEnrollmentRequired now mid new isNamed wasPending isActive at_ =>
      obtain rfl : mid.userId = userId := AuthKey.user.inj (isMid _ rfl)
      subst isNamed
      obtain ⟨activationCode, password, grant, request, spent, owner⟩ := legal
      have spent := spent.longer event
      rcases before with rfl | turn
      · exact .activated request spent owner wasPending isActive at_
      · cases turn with
        | other notUser => exact absurd rfl (notUser _)
        | kept status _ =>
            exact .activated request spent owner (status.symm.trans wasPending) isActive at_
        | created request' _ _ | bootstrapped request' _ | updated request' _ _ _ _ =>
            exact nomatch request.symm.trans request'
        | activated _ _ _ _ isActive' _ => exact nomatch wasPending.symm.trans isActive'
  | kept status activatedAt =>
      rcases before with rfl | turn
      · exact .kept status activatedAt
      · cases turn with
        | other notUser => exact absurd rfl (notUser _)
        | kept status' activatedAt' =>
            exact .kept (status.trans status') (activatedAt.trans activatedAt')
        | created request isPending never =>
            exact .created request (status.trans isPending) (activatedAt.trans never)
        | bootstrapped request isActive => exact .bootstrapped request (status.trans isActive)
        | activated request spent owner wasPending isActive at_ =>
            exact .activated request (spent.longer event) owner wasPending (status.trans isActive)
              (activatedAt.trans at_)
        | updated request read may isStatus same =>
            exact .updated request (read.longer event) may (status.trans isStatus)
              (activatedAt.trans same)

end Turns

/-! ## What returned rows still say -/

/-- A user that had activated when `get_user` returned it still has; and a code that
`consume_activation_token` has consumed is committed as a live one of the user that it has
returned. -/
def Recollection : AuthStatement → AuthRow → AuthKey → Option AuthRow → Option AuthRow → Prop
  | .getUser userId, .user before, k, _, seen =>
      k = .user userId ∧
        (before.activatedAt ≠ none → ∃ user, seen = some (.user user) ∧ user.activatedAt ≠ none)
  | .consumeActivationToken tokenHash now, .user grant, k, committed, seen =>
      ∃ token : ActivationToken, k = .activationToken token.activationTokenId ∧
        committed = some (.activationToken token) ∧ token.userId = grant.userId ∧
          token.tokenHash = tokenHash ∧ token.consumedAt = none ∧ now < token.expiresAt ∧
            seen = some (.activationToken { token with consumedAt := some now })
  | _, _, _, _, _ => True

/-- What is known of every database of accounts. -/
structure Governed (primitives : Primitives) (db : AuthDb) : Prop where
  exclusive : db.Exclusive
  recorded : db.Recorded
  waiting : db.Waiting (authService primitives)
  written : db.Written (authService primitives)
  lawful : db.AtPoints (fun _ _ => True) (LegalAt primitives)
  logged : db.AtPoints (fun _ _ => True) (LoggedAt primitives)
  evolves : db.Evolves Ages
  turned : db.Turned (UserTurn primitives)
  recalled : db.Recalled Recollection
  unclashed : db.Unclashed (AuthRow.clash primitives.lower)

section Governed

variable {primitives : Primitives} {db : AuthDb} {id : Nat} {txn : AuthTxn}

theorem turns (lawful : db.AtPoints (fun _ _ => True) (LegalAt primitives)) :
    Db.Turns (authService primitives) (UserTurn primitives) db where
  longer _ _ event _ _ _ turn := turn.longer event
  performed id txn statement next shown writes found stands result k old? mid? new? before isMid
      isNew change := by
    cases k with
    | user userId =>
        have legal := (lawful id txn found).here.1 statement (by rw [stands]; rfl)
        exact UserTurn.performed _ legal before isMid isNew
          (userChange_of_change (authChange_of_changes change) isMid isNew)
    | _ => exact .other (by simp)

/-- A transaction that has been told no rows has written nothing. -/
theorem writes_of_quiet (written : db.Written (authService primitives))
    (found : db.txns[id]? = some txn) {now : Nat} (log : txn.log = [.clock now]) :
    txn.writes = [] := by
  refine List.eq_nil_iff_forall_not_mem.mpr fun write member => ?_
  obtain ⟨statement, rows, seen, ran, -⟩ := written id txn found write member
  rw [log] at ran
  cases List.mem_singleton.mp ran

/-- What `get_user` returns. -/
theorem recollection_getUser (waiting : db.Waiting (authService primitives))
    (found : db.txns[id]? = some txn) {userId : Uuid} {next : List AuthRow → AuthProgram Unit}
    {shown : List AuthRow} {writes : List (Write AuthKey AuthRow)}
    (stands : txn.program = .run (.getUser userId) next)
    (result : db.performed (authService primitives) id txn (.getUser userId) =
      some (some (shown, writes))) {before : User} (member : .user before ∈ shown) :
    RowStore.lookup (RowStore.applyAll db.state (txn.writes ++ writes)) (.user userId) =
      some (.user before) := by
  have present := Db.snapshotFor_of_select waiting found (by rw [stands]; rfl) fun _ => rfl
  have done := (Db.of_performed result).2
  rw [present] at done
  obtain ⟨rfl, rfl⟩ := Prod.mk.inj (Option.some.inj done)
  obtain ⟨user, isUser, same⟩ := List.mem_map.mp member
  obtain rfl := AuthRow.user.inj same
  rw [List.append_nil]
  exact lookup_user.mpr (Option.mem_toList.mp isUser)

/-- It stays true when the user ages. -/
theorem recollection_ages {userId : Uuid} {before : User} {k : AuthKey}
    {committed? later? old? new? : Option AuthRow}
    (fact : Recollection (.getUser userId) (.user before) k committed? old?)
    (ages : Ages old? new?) :
    Recollection (.getUser userId) (.user before) k later? new? := by
  refine ⟨fact.1, fun activated => ?_⟩
  obtain ⟨user, rfl, still⟩ := fact.2 activated
  cases ages with
  | user stays => exact ⟨_, rfl, stays still⟩
  | other notUser _ => exact absurd rfl (notUser _)

/-- What `consume_activation_token` returns. -/
theorem recollection_consume {tokenHash : String} {now : Nat} {shown : List AuthRow}
    {writes : List (Write AuthKey AuthRow)} (nothing : txn.writes = [])
    (result : db.performed (authService primitives) id txn (.consumeActivationToken tokenHash now) =
      some (some (shown, writes))) {grant : User} (member : .user grant ∈ shown) :
    ∃ k, Recollection (.consumeActivationToken tokenHash now) (.user grant) k
      (RowStore.lookup db.state k)
      (RowStore.lookup (RowStore.applyAll db.state (txn.writes ++ writes)) k) := by
  have done := (Db.of_performed result).2
  obtain ⟨isShown, isWrites⟩ := Command.perform_update done
  rw [isShown] at member
  obtain ⟨row, changed, granted⟩ := List.mem_flatMap.mp member
  obtain ⟨old, isFound, rfl⟩ := List.mem_map.mp changed
  obtain ⟨isThere, holds, -⟩ := Command.mem_found.mp isFound
  obtain ⟨token, rfl, met⟩ := AuthRow.activationTokens.meets_iff.mp holds
  obtain ⟨hash, isLive, unexpired, -⟩ := of_decide_eq_true met
  rw [AuthRow.activationTokens.map_wrap] at granted changed
  -- the user is the one of the code
  have owner : token.userId = grant.userId := by
    simp only [AuthRow.activationTokens, AuthStatement.grantedUser, Option.mem_toList,
      Option.map_eq_some_iff] at granted
    obtain ⟨user, isUser, same⟩ := granted
    obtain rfl := AuthRow.user.inj same
    exact (Table.key_of_lookup isUser).symm
  refine ⟨.activationToken token.activationTokenId, token, rfl, ?_, owner, hash, isLive, unexpired, ?_⟩
  · have there := RowStore.lookup_of_mem isThere
    rw [Txn.view, nothing] at there
    exact there
  · have touched : AuthKey.activationToken token.activationTokenId ∈
        RowStore.touched AuthStore writes := by
      rw [isWrites]
      refine RowStore.mem_touched.mpr ⟨_, List.mem_map_of_mem changed, rfl⟩
    rcases Db.performed_row result (.activationToken token.activationTokenId) with ⟨apart, -⟩ |
      ⟨-, change⟩
    · exact absurd touched apart
    · obtain ⟨other, before, -, after⟩ := changes_setRows change
      have there := RowStore.lookup_of_mem isThere
      obtain rfl := AuthRow.activationToken.inj (Option.some.inj (before.symm.trans there))
      exact after

theorem recalls (waiting : db.Waiting (authService primitives))
    (written : db.Written (authService primitives))
    (lawful : db.AtPoints (fun _ _ => True) (LegalAt primitives)) :
    Db.Recalls (authService primitives) Ages Recollection db where
  fresh id txn statement next shown writes found stands result row member := by
    have legal := (lawful id txn found).here.1 statement (by rw [stands]; rfl)
    cases statement with
    | getUser userId =>
        cases row with
        | user before =>
            refine ⟨_, rfl, fun activated => ⟨before, ?_, activated⟩⟩
            exact recollection_getUser waiting found stands result member
        | _ => exact ⟨.user 0, trivial⟩
    | consumeActivationToken tokenHash now =>
        cases row with
        | user grant =>
            exact recollection_consume (writes_of_quiet written found legal) result member
        | _ => exact ⟨.user 0, trivial⟩
    | _ => exact ⟨.user 0, trivial⟩
  own statement row k committed? old? other snapshot new? fact change := by
    have ages := ages_of_changes change
    cases statement with
    | getUser userId =>
        cases row with
        | user before => exact recollection_ages fact ages
        | _ => trivial
    | consumeActivationToken tokenHash now =>
        cases row with
        | user grant =>
            obtain ⟨token, named, isCommitted, owner, hash, isLive, unexpired, rfl⟩ := fact
            refine ⟨token, named, isCommitted, owner, hash, isLive, unexpired, ?_⟩
            cases ages with
            | token same _ => rw [same (by simp)]
            | other _ notToken => exact absurd rfl (notToken _)
        | _ => trivial
    | _ => trivial
  others statement row k old? new? fact ages := by
    cases statement with
    | getUser userId =>
        cases row with
        | user before => exact recollection_ages fact ages
        | _ => trivial
    | consumeActivationToken tokenHash now =>
        cases row with
        | user grant =>
            -- no row is live and consumed
            obtain ⟨token, -, isCommitted, -, -, isLive, -, isSeen⟩ := fact
            have same := AuthRow.activationToken.inj (Option.some.inj (isCommitted.symm.trans isSeen))
            rw [same] at isLive
            cases isLive
        | _ => trivial
    | _ => trivial

/-- No update makes rows clash. -/
theorem keepsApart (primitives : Primitives) : (authService primitives).KeepsApart := by
  intro statement store old row change other clashes
  have change := authChange_of_changes change
  simp only [authService] at clashes ⊢
  generalize before : some old = old? at change
  generalize after : some row = row? at change
  cases change with
  | invalidateActivationTokens token | consumeActivationToken token =>
      obtain rfl := Option.some.inj before
      obtain rfl := Option.some.inj after
      cases other <;> simp_all [AuthRow.clash]
  | _ => first
    | cases before; done
    | cases after; done
    | (obtain rfl := Option.some.inj before
       obtain rfl := Option.some.inj after
       cases other <;> exact clashes)

theorem clash_comm (lower : String → String) (row other : AuthRow) :
    AuthRow.clash lower row other = AuthRow.clash lower other row := by
  cases row with
  | activationToken row =>
      cases other with
      | activationToken other =>
          exact decide_eq_decide.mpr (or_congr eq_comm (and_congr eq_comm and_comm))
      | _ => rfl
  | _ => cases other <;> simp [AuthRow.clash, eq_comm]

/-- **Every step** keeps what is known. -/
theorem Governed.effect {admits : AuthCall → Prop} {time : Nat} {db' : AuthDb}
    (governed : Governed primitives db)
    (effect : Db.Effect (authService primitives) admits time db db') : Governed primitives db' where
  exclusive := governed.exclusive.effect effect
  recorded := governed.recorded.effect effect
  waiting := governed.waiting.effect effect
  written := governed.written.effect effect
  lawful := governed.lawful.effect (fun _ _ _ _ _ _ => trivial) (lawful_program primitives) effect
  logged := governed.logged.effect (fun _ _ _ _ _ _ => trivial) (logged_program primitives) effect
  evolves := by
    refine governed.evolves.effect governed.exclusive Ages.refl (fun _ _ _ => Ages.trans) ?_ effect
    intro id txn statement next shown writes _ _ _ before after change
    exact ages_of_changes change
  turned := governed.turned.effect governed.exclusive (turns governed.lawful) effect
  recalled := by
    refine governed.recalled.effect governed.exclusive governed.evolves ?_ effect
    exact recalls governed.waiting governed.written governed.lawful
  unclashed := by
    refine governed.unclashed.effect governed.exclusive (keepsApart primitives) ?_ effect
    exact clash_comm primitives.lower

theorem Governed.initial (primitives : Primitives) : Governed primitives { state := .empty } where
  exclusive _ _ _ _ _ found := by simp at found
  recorded := ⟨List.nodup_nil, fun id => by simp⟩
  waiting _ _ found := by simp at found
  written _ _ found := by simp at found
  lawful _ _ found := by simp at found
  logged _ _ found := by simp at found
  evolves _ _ found := by simp at found
  turned _ _ found := by simp at found
  recalled _ _ found := by simp at found
  unclashed := by
    refine ⟨fun k _ row _ _ shown => ?_, fun _ _ found => by simp at found,
      fun _ _ _ _ _ found => by simp at found⟩
    cases k <;> simp [RowStore.lookup, AuthStore.lookup, AuthStore.empty] at shown

theorem governed_inductive (primitives : Primitives) :
    (accountSystem primitives).Inductive fun world => Governed primitives world.db :=
  inductive_onDb (.initial primitives) fun _ _ governed effect => governed.effect effect

end Governed

end OpsComposer.Accounts
