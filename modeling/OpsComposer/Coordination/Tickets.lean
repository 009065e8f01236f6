import OpsComposer.Coordination.Sessions

/-!
# Web-shell tickets

A pending session is a ticket.  The call that claims it locks its row and turns it into an
active one, which no later claim finds pending (`ticket_used_once`).  What is launched is what
was requested: the row that the opening call has added, for the user and the login that it was
added for, before the ticket has expired.
-/

set_option autoImplicit false

namespace OpsComposer.Coordination

open Domain Foundations Repositories Services
open RowStore
open WebShellRepository (Authenticated)

/-! ## A claim -/

/-- A claim has found the pending session, and leaves it active for its owner, with the lock of
its host. -/
structure Launches (db : OpsDb) (place : Nat) (webShellSessionId : Uuid) (principal : Principal)
    (ownerId : String) (now seen : Nat) (requested : WebShellSession) (lock : HostLock) : Prop where
  isThere : lookup (committedAt db place) (OpsKey.shell webShellSessionId) =
    some (.shell requested)
  actor : requested.actorUserId = principal.userId
  login : requested.authSessionId = principal.sessionId
  pending : requested.state = .pending
  unexpired : now < requested.ticketExpiresAt
  le : seen ≤ place
  authenticated : Authenticated (committedAt db seen).toStore now requested
  holds : HoldsHost (committedAt db (place + 1)) webShellSessionId ownerId
    (WebShellRepository.activated ownerId now (now + seconds WebShellService.leaseSeconds)
      requested) lock
  leased : lock.expiresAt = now + seconds WebShellService.leaseSeconds

theorem mem_of_shell? {rows : List OpsRow} {session : WebShellSession}
    (isFirst : shell? rows = some session) : .shell session ∈ rows := by
  unfold shell? at isFirst
  split at isFirst
  · obtain rfl := Option.some.inj isFirst
    exact List.mem_cons_self
  · cases isFirst

/-- The login behind a session is that of the rows of logins and users. -/
theorem authenticated_congr {store store' : OpsStore} {now : Nat} {session : WebShellSession}
    (logins : ∀ id : Uuid, lookup store (OpsKey.login id) = lookup store' (OpsKey.login id))
    (users : ∀ id : Uuid, lookup store (OpsKey.user id) = lookup store' (OpsKey.user id))
    (before : Authenticated store.toStore now session) :
    Authenticated store'.toStore now session := by
  obtain ⟨entry, isEntry, unexpired, owner, isOwner, active⟩ := before
  refine ⟨entry, ?_, unexpired, owner, ?_, active⟩
  · rw [Option.mem_def, ← lookup_login, ← logins, lookup_login]
    exact isEntry
  · rw [Option.mem_def, ← lookup_user, ← users, lookup_user]
    exact isOwner

/-- Rows of sessions leave all others. -/
theorem lookup_shells {rows : List OpsRow} (only : ∀ row ∈ rows, ∃ session, row = .shell session)
    (store : OpsStore) {k : OpsKey} (apart : ∀ id, k ≠ .shell id) :
    lookup (applyAll store (rows.map .put)) k = lookup store k := by
  refine lookup_applyAll_of_not_mem store fun isTouched => ?_
  obtain ⟨write, isWrite, same⟩ := mem_touched.mp isTouched
  obtain ⟨row, member, rfl⟩ := List.mem_map.mp isWrite
  obtain ⟨session, rfl⟩ := only row member
  exact apart _ same.symm

section Runs

variable {settings : OpsSettings} {db : OpsDb}

variable {place seen : Nat} {principal : Principal} {ownerId : String} {webShellSessionId : Uuid}
  {requested : WebShellSession}

/-- A statement that locks the session has found it as it is when its call commits. -/
theorem OpsCommit.locks_session {index : Nat} {txn : OpsTxn} {answer : OpsAnswer}
    (committed : OpsCommit settings db place index txn answer) (placed : Placed settings db)
    {earlier later : List OpsEvent} {rows : List OpsRow}
    (split : txn.log = earlier ++ .ran (.getShell webShellSessionId true) rows seen :: later)
    (quiet : logged OpsStatement.effects earlier = []) {current : WebShellSession}
    (isThere : shell? rows = some current) :
    current.webShellSessionId = webShellSessionId ∧
      lookup (committedAt db place) (OpsKey.shell current.webShellSessionId) =
        some (.shell current) ∧
      (∀ store : OpsStore, lookup (applyAll store (rows.map .put))
        (OpsKey.shell current.webShellSessionId) = some (.shell current)) ∧
      ∀ row ∈ rows, ∃ session, row = .shell session := by
  obtain ⟨n, -, ran, kept⟩ := placed.account.chronicle.ran_of_committed committed.next
    committed.found committed.done split
  rw [quiet] at ran kept
  have isGot : (Command.set (OpsRow.shells.meets fun session =>
      session.webShellSessionId = webShellSessionId) id (fun _ => rfl) : OpsCommand).perform
      OpsRow.clash (committedAt db seen) (committedAt db n) = some (rows, rows.map .put) :=
    ran.performed
  have isRow := mem_of_shell? isThere
  obtain ⟨old, found, isId, -, same⟩ :=
    (RowKind.mem_updated (f := id) (fun _ => rfl) isGot).mp isRow
  obtain rfl : current = old := OpsRow.shell.inj same
  refine ⟨of_decide_eq_true isId, ?_,
    RowKind.lookup_updated (f := id) (fun _ => rfl) isGot isRow, ?_⟩
  · refine (kept _ (mem_touched.mpr ⟨.put (.shell current), ?_, rfl⟩)).symm.trans found
    exact List.mem_map_of_mem isRow
  · intro row member
    obtain ⟨session, -, -, -, rfl⟩ :=
      (RowKind.mem_updated (f := id) (fun _ => rfl) isGot).mp member
    exact ⟨session, rfl⟩

/-- **The commit of a claim.** -/
theorem OpsCommit.launches {index : Nat} {txn : OpsTxn} {launchable : Bool}
    {active : WebShellSession} (committed : OpsCommit settings db place index txn (.opened active))
    (placed : Placed settings db)
    (call : txn.call = .claimShell webShellSessionId principal ownerId launchable) :
    ∃ now seen requested lock, .clock now ∈ txn.log ∧
      active = WebShellRepository.activated ownerId now
        (now + seconds WebShellService.leaseSeconds) requested ∧
      Launches db place webShellSessionId principal ownerId now seen requested lock := by
  have chronicle := placed.account.chronicle
  have outcome := committed.outcome
  rw [call] at outcome
  generalize log : txn.log = events at outcome
  cases outcome with
  | plain isPlain only => cases isPlain
  | @launched _ _ _ now s s' s'' rows rows' handed current _ permitted isThere actor session pending
      unexpired isActive one =>
      have ran := fun {earlier later : List OpsEvent} {statement : OpsStatement}
          {shown : List OpsRow} {seen : Nat}
          (split : txn.log = earlier ++ .ran statement shown seen :: later) =>
        chronicle.ran_of_committed committed.next committed.found committed.done split
      obtain ⟨rfl, isThere, held, onlyShells⟩ :=
        committed.locks_session placed (show txn.log = [_] ++ .ran _ _ _ :: _ from log) rfl isThere
      -- and turned into an active one
      obtain ⟨n', le, turned, -⟩ := ran (show txn.log = [_, _] ++ .ran _ _ _ :: _ from log)
      have isTurned : (opsSet OpsRow.shells
          (fun session => WebShellRepository.Activatable
            (applyAll (committedAt db s') (rows.map .put)).toStore current.webShellSessionId
              principal.sessionId now session)
          (WebShellRepository.activated ownerId now (now + seconds WebShellService.leaseSeconds))
          (fun _ => rfl)).perform OpsRow.clash (applyAll (committedAt db s') (rows.map .put))
          (applyAll (committedAt db n') (rows.map .put)) = some (rows', rows'.map .put) := by
        have performed := turned.performed
        simp only [logged_clock, logged_ran, logged_nil, List.append_nil] at performed
        exact performed
      have isActiveRow := mem_of_shell? isActive
      obtain ⟨old, found', holds, -, same⟩ :=
        (RowKind.mem_updated (OpsRow.shells.map_wrap _) isTurned).mp isActiveRow
      obtain rfl := OpsRow.shell.inj same
      obtain ⟨name, -, -, -, authenticated⟩ := of_decide_eq_true holds
      have found' : lookup (applyAll (committedAt db n') (rows.map .put))
          (OpsKey.shell old.webShellSessionId) = some (.shell old) := found'
      rw [name] at found'
      obtain rfl : old = current := OpsRow.shell.inj (Option.some.inj (found'.symm.trans (held _)))
      -- and the lock of its host is handed to the owner
      obtain ⟨n'', -, handing, -⟩ := ran (show txn.log = [_, _, _] ++ .ran _ _ _ :: _ from log)
      have isHanded : (opsSet OpsRow.locks
          (fun lock => WebShellRepository.UnexpiredLock old.webShellSessionId now lock)
          (fun lock =>
            { lock with
              ownerId := ownerId
              expiresAt := now + seconds WebShellService.leaseSeconds }) (fun _ => rfl)).perform
          OpsRow.clash (applyAll (committedAt db s'') (rows.map .put ++ rows'.map .put))
          (applyAll (committedAt db n'') (rows.map .put ++ rows'.map .put)) =
            some (handed, handed.map .put) := by
        have performed := handing.performed
        simp only [logged_clock, logged_ran, logged_nil, List.append_nil] at performed
        exact performed
      obtain ⟨row, rfl⟩ := List.length_eq_one_iff.mp one
      obtain ⟨lock, -, isUnexpired, -, rfl⟩ :=
        (RowKind.mem_updated (OpsRow.locks.map_wrap _) isHanded).mp List.mem_cons_self
      obtain ⟨names, -⟩ := of_decide_eq_true isUnexpired
      have after : committedAt db (place + 1) = applyAll (applyAll (applyAll (committedAt db place)
          (rows.map .put)) (rows'.map .put)) [.put (.lock
            { lock with
              ownerId := ownerId
              expiresAt := now + seconds WebShellService.leaseSeconds })] := by
        rw [committedAt, committed.after, log]
        simp only [logged_clock, logged_ran, logged_nil, List.append_nil, applyAll_append]
        rfl
      have isSession : lookup (committedAt db (place + 1)) (OpsKey.shell old.webShellSessionId) =
          some (.shell (WebShellRepository.activated ownerId now
            (now + seconds WebShellService.leaseSeconds) old)) := by
        rw [after, lookup_applyAll_of_not_mem _ (by simp [touched, written, key, OpsRow.key])]
        exact RowKind.lookup_updated (OpsRow.shells.map_wrap _) isTurned isActiveRow _
      have isLock : lookup (committedAt db (place + 1)) (OpsKey.lock lock.hostId) = some (.lock
          { lock with
            ownerId := ownerId
            expiresAt := now + seconds WebShellService.leaseSeconds }) := by
        rw [after, applyAll_cons, applyAll_nil, lookup_apply]
        exact if_pos rfl
      have bound : place + 1 ≤ db.history.length := (List.getElem?_eq_some_iff.mp committed.next).1
      have holder : lock.holder = .shell old.webShellSessionId := HostLock.shellId?_eq_some.mp names
      have host := placed.host_eq bound isSession isLock holder
      refine ⟨now, s', old,
        { lock with
          ownerId := ownerId
          expiresAt := now + seconds WebShellService.leaseSeconds }, List.mem_cons_self, rfl,
        ⟨isThere, actor, session, pending, unexpired, turned.le.trans le, ?_,
          ⟨lookup_shell.mp isSession, rfl, rfl, ?_, holder, rfl⟩, rfl⟩⟩
      · exact authenticated_congr (fun id => lookup_shells onlyShells _ (by simp))
          (fun id => lookup_shells onlyShells _ (by simp)) authenticated
      · rw [show (WebShellRepository.activated ownerId now
          (now + seconds WebShellService.leaseSeconds) old).hostId = lock.hostId from host]
        exact lookup_lock.mp isLock

/-! ## Tickets -/

/-- A unit of work has read the clock. -/
def ReadAt (db : OpsDb) (index now : Nat) : Prop :=
  ∃ txn : OpsTxn, db.txns[index]? = some txn ∧ .clock now ∈ txn.log

/-- The commit after so many others has added the session, for the host and the user of its
call. -/
def IssuedAt (db : OpsDb) (opening : Nat) (webShellSessionId : Uuid) (requested : WebShellSession) :
    Prop :=
  ∃ index hostId principal instanceId reading target created,
    db.history[opening]? = some index ∧ ReadAt db index created ∧
      Answered db index (.createShell webShellSessionId hostId principal instanceId reading)
        (.opened requested) ∧
        requested = WebShellService.pendingSession webShellSessionId hostId principal instanceId
          target created

/-- A pending session is as it has been added. -/
theorem SessionTurn.keeps_requested {snapshot : OpsStore} {statement : OpsStatement}
    {old new : WebShellSession} (turn : SessionTurn snapshot statement old new)
    (before : old = requested ∨ old.state ≠ .pending) : new = requested ∨ new.state ≠ .pending := by
  cases turn with
  | held => exact before
  | activated _ => exact .inr (by simp [WebShellRepository.activated])
  | beaten refreshable =>
      have active : old.state = .active := refreshable.2.2.1
      exact .inr (by simp [active])
  | closing _ => exact .inr (by simp)

/-- **A session is launched as it was requested.** -/
theorem Launches.issued (placed : Placed settings db) {now : Nat}
    {lock : HostLock} (bound : place < db.history.length)
    (launches : Launches db place webShellSessionId principal ownerId now seen requested lock) :
    ∃ opening, opening < place ∧ OpenedAt db opening webShellSessionId ∧
      IssuedAt db opening webShellSessionId requested := by
  obtain ⟨opening, index, txn, answer, hostId, actor, instanceId, reading, earlier, committed,
    call⟩ := placed.exists_opening bound.le launches.isThere
  obtain ⟨target, created, rfl, read, added⟩ := committed.opening placed.account call
  have opened : OpenedAt db opening webShellSessionId :=
    ⟨index, txn, committed.next, committed.found, by rw [call]; rfl⟩
  refine ⟨opening, earlier, opened, ?_⟩
  have later := placed.session_later opened (Nat.lt_succ_self _) (Nat.succ_le_of_lt earlier)
    bound.le (P := fun session => session = WebShellService.pendingSession webShellSessionId hostId
      actor instanceId target created ∨ session.state ≠ .pending)
    (fun _ _ _ _ turn => turn.keeps_requested)
    (fun session found => .inl (OpsRow.shell.inj (Option.some.inj (found.symm.trans added))))
    requested launches.isThere
  obtain rfl := later.resolve_right fun settled => settled launches.pending
  exact ⟨index, hostId, actor, instanceId, reading, target, created, committed.next,
    ⟨txn, committed.found, read⟩, ⟨txn, committed.found, call, committed.done, committed.stands⟩,
    rfl⟩

/-- What has been launched is not launched later on. -/
theorem Launches.not_again (placed : Placed settings db) {place' : Nat} {principal' : Principal}
    {ownerId' : String}
    {now now' seen' : Nat} {requested' : WebShellSession} {lock lock' : HostLock}
    (launches : Launches db place webShellSessionId principal ownerId now seen requested lock)
    (launches' : Launches db place' webShellSessionId principal' ownerId' now' seen' requested'
      lock') (bound : place' < db.history.length) : ¬ place < place' := by
  intro before
  obtain ⟨opening, earlier, opened, -⟩ := launches.issued placed (before.trans bound)
  refine placed.session_later opened (Nat.lt_succ_of_lt earlier) (Nat.succ_le_of_lt before) bound.le
    (P := fun session => session.state ≠ .pending) ?_ ?_ requested' launches'.isThere
    launches'.pending
  · intro statement snapshot old new turn settled
    rcases turn.keeps_requested (.inl (Eq.refl old)) with rfl | isSettled
    · exact settled
    · exact isSettled
  · intro session found
    obtain rfl := Option.some.inj (launches.holds.isSession.symm.trans (lookup_shell.mp found))
    simp [WebShellRepository.activated]

/-- **A ticket is used once**, by its user, with its login, before it expires. -/
theorem ticket_used_once (settings : OpsSettings) {world : OpsWorld}
    (reached : ((opsSystem settings (· = OpsStore.empty)).restrict DrawsFresh).Reachable world)
    {webShellSessionId : Uuid} {principal : Principal} {ownerId : String} {launchable : Bool}
    {index : Nat} {active : WebShellSession}
    (launched : Answered world.db index
      (.claimShell webShellSessionId principal ownerId launchable) (.opened active)) :
    (∀ index' principal' ownerId' launchable' active',
      Answered world.db index' (.claimShell webShellSessionId principal' ownerId' launchable')
        (.opened active') → index' = index) ∧
      ∃ opening place now seen requested lock,
        IssuedAt world.db opening webShellSessionId requested ∧ opening < place ∧
          world.db.history[place]? = some index ∧ ReadAt world.db index now ∧
            Launches world.db place webShellSessionId principal ownerId now seen requested lock ∧
              active = WebShellRepository.activated ownerId now
                (now + seconds WebShellService.leaseSeconds) requested := by
  have placed := (placed_inductive settings).of_reachable reached
  obtain ⟨place, txn, committed, call⟩ := commit_of_answered placed.account launched
  obtain ⟨now, seen, requested, lock, read, isActive, launches⟩ := committed.launches placed call
  have bound : place < world.db.history.length := (List.getElem?_eq_some_iff.mp committed.next).1
  constructor
  · intro index' principal' ownerId' launchable' active' launched'
    obtain ⟨place', txn', committed', call'⟩ := commit_of_answered placed.account launched'
    obtain ⟨now', seen', requested', lock', -, -, launches'⟩ := committed'.launches placed call'
    have bound' : place' < world.db.history.length :=
      (List.getElem?_eq_some_iff.mp committed'.next).1
    obtain rfl : place = place' := by
      refine le_antisymm (Nat.le_of_not_lt ?_) (Nat.le_of_not_lt ?_)
      · exact launches'.not_again placed launches bound
      · exact launches.not_again placed launches' bound'
    exact Option.some.inj (committed'.next.symm.trans committed.next)
  · obtain ⟨opening, earlier, -, issued⟩ := launches.issued placed bound
    exact ⟨opening, place, now, seen, requested, lock, issued, earlier, committed.next,
      ⟨txn, committed.found, read⟩, launches, isActive⟩

end Runs

/-! ## A launch -/

/-- A user signs in, opens a web shell and claims it. -/
def launching : List (DbAct OpsCall) :=
  [.onDb (.begin (.changeAccounts [.putUser ⟨1, true⟩, .putLogin ⟨7, 1, seconds 3600⟩])),
    .onDb (.perform 0), .onDb (.perform 0), .onDb (.commit 0)] ++
  calling 1 5 (.createShell 3 4 shellPrincipal "api" hostReading) ++ [.onDb (.commit 1)] ++
  calling 2 3 (.claimShell 3 shellPrincipal "owner" true) ++ [.onDb (.commit 2)]

/-- The unit of work is a committed claim of the session that launches it. -/
def hasLaunched (webShellSessionId : Uuid) (txn : OpsTxn) : Bool :=
  match txn.call, txn.program with
  | .claimShell id _ _ _, .done (.opened _) =>
      decide (id = webShellSessionId ∧ txn.status = .committed)
  | _, _ => false

theorem answered_of_hasLaunched {db : OpsDb} {webShellSessionId : Uuid} {index : Nat}
    (launched : db.txns[index]?.any (hasLaunched webShellSessionId) = true) :
    ∃ principal ownerId launchable active, Answered db index
      (.claimShell webShellSessionId principal ownerId launchable) (.opened active) := by
  obtain ⟨txn, found, has⟩ := (Option.any_eq_true _ _).mp launched
  unfold hasLaunched at has
  split at has
  · rename_i call program
    obtain ⟨rfl, done⟩ := of_decide_eq_true has
    exact ⟨_, _, _, _, txn, found, call, done, program⟩
  · cases has

/-- The session is launched from its request. -/
theorem ticket_used_once_launched : ∃ world opening place principal ownerId now seen requested lock,
    (opsSystem deploymentSettings (· = OpsStore.empty)).exec freshWorld launching = some world ∧
      IssuedAt world.db opening 3 requested ∧
        Launches world.db place 3 principal ownerId now seen requested lock := by
  have ran : ((opsSystem deploymentSettings (· = OpsStore.empty)).exec freshWorld launching).any
      (fun world => world.db.txns[2]?.any (hasLaunched 3)) = true := by
    decide +kernel
  have along : (opsSystem deploymentSettings (· = OpsStore.empty)).Along DrawsFresh freshWorld
      launching := by
    decide +kernel
  obtain ⟨world, done, launched⟩ := (Option.any_eq_true _ _).mp ran
  have reached : ((opsSystem deploymentSettings (· = OpsStore.empty)).restrict DrawsFresh).Reachable
      world := ⟨freshWorld, ⟨0, _, rfl, rfl⟩, System.leads_restrict_of_exec done along⟩
  obtain ⟨principal, ownerId, launchable, active, answered⟩ := answered_of_hasLaunched launched
  obtain ⟨-, opening, place, now, seen, requested, lock, issued, -, -, -, launches, -⟩ :=
    ticket_used_once deploymentSettings reached answered
  exact ⟨world, opening, place, principal, ownerId, now, seen, requested, lock, done, issued,
    launches⟩

end OpsComposer.Coordination
