import OpsComposer.Coordination.Placement

/-!
# Heartbeats of web shells

A heartbeat renews the lease of a session and the lock of its host in one statement, and answers
that the shell may go on only when it has renewed both (`heartbeat_told`).  The rows that it has
renewed stay as they are until its commit, so that what it answers about the session and about
the lock holds in the committed state.

It looks at the login behind the session without a lock, in the state from which its statement
starts.  A logout that commits between that and the commit of the heartbeat leaves a renewed
session without a login (`heartbeat_told_fails`).
-/

set_option autoImplicit false

namespace OpsComposer.Coordination

open Domain Foundations Repositories Services
open RowStore
open WebShellRepository (Refreshable Authenticated)

/-! ## The statement -/

section Statement

variable {clash : OpsRow → OpsRow → Bool} {snapshot current : OpsStore} {shown : List OpsRow}
  {writes : List (Write OpsKey OpsRow)} {webShellSessionId : Uuid} {ownerId : String}
  {now expiresAt lastActivityAt : Nat}

/-- A heartbeat deletes nothing. -/
theorem refreshed_some {old : OpsRow} {after : Option OpsRow}
    (isChange : OpsStatement.refreshed snapshot webShellSessionId ownerId now expiresAt
      lastActivityAt current old = some after) :
    ∃ row, after = some row ∧ row.key = old.key := by
  cases after with
  | some row => exact ⟨row, rfl, OpsStatement.refreshed_keeps current old row isChange⟩
  | none => cases old <;> simp [OpsStatement.refreshed] at isChange

variable {row : OpsRow} {store : OpsStore}

/-- The rows that a heartbeat returns are new versions of those that it has found. -/
theorem mem_beaten
    (done : ((OpsStatement.heartbeatShell webShellSessionId ownerId now expiresAt
      lastActivityAt).meaning snapshot).perform clash snapshot current = some (shown, writes)) :
    row ∈ shown ↔ ∃ old, lookup current row.key = some old ∧
      (∃ seen ∈ snapshot.rows, seen.key = row.key ∧
        (OpsStatement.refreshed snapshot webShellSessionId ownerId now expiresAt lastActivityAt
          snapshot seen).isSome) ∧
        OpsStatement.refreshed snapshot webShellSessionId ownerId now expiresAt lastActivityAt
          current old = some (some row) := by
  obtain ⟨isShown, -⟩ := Command.perform_rewrite done
  rw [isShown, List.mem_map]
  constructor
  · rintro ⟨⟨old, after⟩, member, rfl⟩
    obtain ⟨isThere, among, isChange⟩ := Command.mem_changed.mp member
    obtain ⟨row, rfl, key⟩ := refreshed_some isChange
    obtain ⟨seen, isSeen, same⟩ := List.mem_map.mp among
    obtain ⟨isRow, changes⟩ := List.mem_filter.mp isSeen
    refine ⟨old, ?_, ⟨seen, isRow, same.trans key.symm, changes⟩, isChange⟩
    rw [show OpsRow.key (Option.getD (some row) old) = OpsRow.key old from key]
    exact lookup_of_mem isThere
  · rintro ⟨old, found, ⟨seen, isRow, same, changes⟩, isChange⟩
    refine ⟨(old, some row), Command.mem_changed.mpr ⟨mem_of_lookup found, ?_, isChange⟩, rfl⟩
    refine List.mem_map.mpr ⟨seen, List.mem_filter.mpr ⟨isRow, changes⟩, ?_⟩
    exact same.trans (key_of_lookup found).symm

/-- They have different keys. -/
theorem beaten_unique
    (done : ((OpsStatement.heartbeatShell webShellSessionId ownerId now expiresAt
      lastActivityAt).meaning snapshot).perform clash snapshot current = some (shown, writes))
    {row' : OpsRow} (member : row ∈ shown) (member' : row' ∈ shown)
    (key : row'.key = row.key) : row' = row := by
  obtain ⟨old, found, -, isChange⟩ := (mem_beaten done).mp member
  obtain ⟨old', found', -, isChange'⟩ := (mem_beaten done).mp member'
  rw [key, found] at found'
  obtain rfl := Option.some.inj found'
  exact Option.some.inj (Option.some.inj (isChange'.symm.trans isChange))

/-- A session among them. -/
theorem shell_beaten
    (done : ((OpsStatement.heartbeatShell webShellSessionId ownerId now expiresAt
      lastActivityAt).meaning snapshot).perform clash snapshot current = some (shown, writes))
    {row : WebShellSession} (member : .shell row ∈ shown) :
    ∃ session, lookup current (.shell row.webShellSessionId) = some (.shell session) ∧
      Refreshable snapshot.toStore webShellSessionId ownerId now session ∧
        row = { session with leaseExpiresAt := expiresAt, lastActivityAt := some lastActivityAt } := by
  obtain ⟨old, found, -, isChange⟩ := (mem_beaten done).mp member
  cases old <;> simp only [OpsStatement.refreshed, Option.ite_none_right_eq_some,
    Option.some.injEq, reduceCtorEq, OpsRow.shell.injEq, and_false] at isChange
  obtain ⟨refreshable, rfl⟩ := isChange
  exact ⟨_, found, refreshable, rfl⟩

theorem lookup_shell {session : WebShellSession} :
    lookup store (OpsKey.shell webShellSessionId) = some (OpsRow.shell session) ↔
      store.shells.lookup webShellSessionId = some session := by
  show (store.shells.lookup webShellSessionId).map OpsRow.shell = _ ↔ _
  simp

theorem lookup_lock {hostId : Uuid} {lock : HostLock} :
    lookup store (OpsKey.lock hostId) = some (OpsRow.lock lock) ↔
      store.locks.lookup hostId = some lock := by
  show (store.locks.lookup hostId).map OpsRow.lock = _ ↔ _
  simp

theorem lookup_login {sessionId : Uuid} {login : LoginSession} :
    lookup store (OpsKey.login sessionId) = some (OpsRow.login login) ↔
      store.logins.lookup sessionId = some login := by
  show (store.logins.lookup sessionId).map OpsRow.login = _ ↔ _
  simp

theorem lookup_user {userId : Uuid} {user : LoginUser} :
    lookup store (OpsKey.user userId) = some (OpsRow.user user) ↔
      store.users.lookup userId = some user := by
  show (store.users.lookup userId).map OpsRow.user = _ ↔ _
  simp

/-- The row of a session of the table. -/
theorem lookup_shell_of_mem {session : WebShellSession} (member : session ∈ store.shells.rows) :
    lookup store (OpsKey.shell session.webShellSessionId) = some (OpsRow.shell session) :=
  lookup_shell.mpr (Table.lookup_eq_some_iff.mpr ⟨member, rfl⟩)

/-- A lock among them: the session that it names is among them, too. -/
theorem lock_beaten
    (done : ((OpsStatement.heartbeatShell webShellSessionId ownerId now expiresAt
      lastActivityAt).meaning snapshot).perform clash snapshot current = some (shown, writes))
    {row : HostLock} (member : .lock row ∈ shown) :
    (∃ lock, lookup current (.lock row.hostId) = some (.lock lock) ∧
      lock.holder = .shell webShellSessionId ∧ lock.ownerId = ownerId ∧
        row = { lock with expiresAt := expiresAt }) ∧ ∃ session, .shell session ∈ shown := by
  obtain ⟨old, found, ⟨seen, isSeen, key, changes⟩, isChange⟩ := (mem_beaten done).mp member
  cases old <;> simp only [OpsStatement.refreshed, Option.ite_none_right_eq_some,
    Option.some.injEq, reduceCtorEq, OpsRow.lock.injEq, and_false] at isChange
  obtain ⟨⟨⟨session, isThere, refreshable, names⟩, isOwner⟩, rfl⟩ := isChange
  obtain ⟨shownLock, rfl, -⟩ := lock_of_key key
  have beats : (∃ session ∈ snapshot.shells.rows,
      Refreshable snapshot.toStore webShellSessionId ownerId now session ∧
        shownLock.shellId? = some session.webShellSessionId) ∧ shownLock.ownerId = ownerId := by
    simpa [OpsStatement.refreshed] using changes
  obtain ⟨⟨before, isBefore, wasRefreshable, -⟩, -⟩ := beats
  refine ⟨⟨_, found, ?_, isOwner, rfl⟩,
    { session with leaseExpiresAt := expiresAt, lastActivityAt := some lastActivityAt }, ?_⟩
  · rw [← refreshable.1]
    exact HostLock.shellId?_eq_some.mp names
  · refine (mem_beaten done).mpr ⟨.shell session, lookup_shell_of_mem isThere,
      ⟨.shell before, ?_, ?_, ?_⟩, ?_⟩
    · exact mem_of_lookup (lookup_shell_of_mem isBefore)
    · exact congrArg OpsKey.shell (wasRefreshable.1.trans refreshable.1.symm)
    · simp only [OpsStatement.refreshed, if_pos wasRefreshable, Option.isSome_some]
    · exact if_pos refreshable

/-- There are no other rows among them. -/
theorem kind_beaten
    (done : ((OpsStatement.heartbeatShell webShellSessionId ownerId now expiresAt
      lastActivityAt).meaning snapshot).perform clash snapshot current =
        some (shown, writes)) (member : row ∈ shown) :
    (∃ session, row = .shell session) ∨ ∃ lock, row = .lock lock := by
  obtain ⟨old, found, -, isChange⟩ := (mem_beaten done).mp member
  cases old <;> simp only [OpsStatement.refreshed, Option.ite_none_right_eq_some,
    Option.some.injEq, reduceCtorEq] at isChange
  · obtain ⟨-, rfl⟩ := isChange
    exact .inr ⟨_, rfl⟩
  · obtain ⟨-, rfl⟩ := isChange
    exact .inl ⟨_, rfl⟩

end Statement

/-! ## What a heartbeat answers -/

/-- What `heartbeat` answers when it has not renewed both, by the session that it reads then. -/
def closeReason (ownerId : String) (current : Option WebShellSession) :
    WebShellService.CloseReason :=
  if current.any fun session =>
      decide (session.ownerId = some ownerId ∧ session.state = .closeRequested) then
    .userRequested
  else .authSessionInvalid

/-- A unit of work has been committed with this answer. -/
def Answered (db : OpsDb) (id : Nat) (call : OpsCall) (answer : OpsAnswer) : Prop :=
  ∃ txn : OpsTxn, db.txns[id]? = some txn ∧ txn.call = call ∧ txn.status = .committed ∧
    txn.program = .done answer

/-- There is a session among the rows, and a lock. -/
abbrev hasBoth (rows : List OpsRow) : Bool :=
  rows.any (fun row => (OpsRow.shells.unwrap row).isSome) &&
    rows.any fun row => (OpsRow.locks.unwrap row).isSome

/-- `heartbeat` has returned: the shell may go on, or, by a later unit of work, it must close. -/
inductive Returned (db : OpsDb) (webShellSessionId : Uuid) (ownerId : String)
    (lastActivityAt id : Nat) : Option WebShellService.CloseReason → Prop where
  | goesOn
      (renewed : Answered db id (.heartbeatShell webShellSessionId ownerId lastActivityAt)
        (.refreshed true)) :
      Returned db webShellSessionId ownerId lastActivityAt id none
  | closes {id' : Nat} {current : Option WebShellSession} (later : id < id')
      (lost : Answered db id (.heartbeatShell webShellSessionId ownerId lastActivityAt)
        (.refreshed false))
      (read : Answered db id' (.getShell webShellSessionId) (.current current)) :
      Returned db webShellSessionId ownerId lastActivityAt id (some (closeReason ownerId current))

/-- The session is active for its owner, and the lock of its host names both. -/
structure HoldsHost (store : OpsStore) (webShellSessionId : Uuid) (ownerId : String)
    (session : WebShellSession) (lock : HostLock) : Prop where
  isSession : store.shells.lookup webShellSessionId = some session
  active : session.state = .active
  owned : session.ownerId = some ownerId
  isLock : store.locks.lookup session.hostId = some lock
  holder : lock.holder = .shell webShellSessionId
  owner : lock.ownerId = ownerId

/-- The heartbeat has read the clock, its statement has seen so many commits, and so many were
before its own. -/
structure BeatAt (db : OpsDb) (webShellSessionId : Uuid) (ownerId : String)
    (lastActivityAt id now seen place : Nat) (rows : List OpsRow) : Prop where
  next : db.history[place]? = some id
  le : seen ≤ place
  ran : ∃ txn : OpsTxn, db.txns[id]? = some txn ∧ txn.status = .committed ∧
    txn.log = [.clock now, .ran (.heartbeatShell webShellSessionId ownerId now
      (now + seconds WebShellService.leaseSeconds) lastActivityAt) rows seen]

/-- The committed states of a run. -/
abbrev committedAt (db : OpsDb) (n : Nat) : OpsStore := db.stateAt OpsStore.empty n

section Runs

variable {settings : OpsSettings} {db : OpsDb} {webShellSessionId : Uuid} {ownerId : String}
  {lastActivityAt id now seen place : Nat} {rows : List OpsRow}

/-- A committed heartbeat has a place in the history, with the rows that it has returned. -/
theorem beatAt_of_answered (placed : Placed settings db) {both : Bool}
    (answered : Answered db id (.heartbeatShell webShellSessionId ownerId lastActivityAt)
      (.refreshed both)) :
    ∃ now seen place rows,
      BeatAt db webShellSessionId ownerId lastActivityAt id now seen place rows ∧
        both = hasBoth rows := by
  obtain ⟨txn, found, call, done, stands⟩ := answered
  obtain ⟨start, rfl, chronicle⟩ := placed.chronicled.chronicle
  obtain ⟨place, next⟩ := List.mem_iff_getElem?.mp ((chronicle.recorded.iff id).mpr
    ⟨txn, found, done⟩)
  obtain ⟨answer, stands', outcome⟩ := chronicle.outcome placed.chronicled.points found done
  obtain rfl := Program.done.inj (stands.symm.trans stands')
  rw [call] at outcome
  generalize log : txn.log = events at outcome
  cases outcome with
  | plain isPlain only => cases isPlain
  | @beaten _ _ _ now seen rows =>
      have split : txn.log = [.clock now] ++ .ran (.heartbeatShell webShellSessionId ownerId now
          (now + seconds WebShellService.leaseSeconds) lastActivityAt) rows seen :: [] := log
      obtain ⟨n, le, ran, -⟩ := chronicle.ran_of_committed next found done split
      exact ⟨now, seen, place, rows, ⟨next, ran.le.trans le, txn, found, done, log⟩, rfl⟩

/-- What the statement of a heartbeat has found is there when it commits, and what it has
returned is there afterwards. -/
structure Renews (db : OpsDb) (webShellSessionId : Uuid) (ownerId : String)
    (now expiresAt lastActivityAt seen n place : Nat) (rows : List OpsRow) : Prop where
  done : ∃ writes, ((OpsStatement.heartbeatShell webShellSessionId ownerId now expiresAt
    lastActivityAt).meaning (committedAt db seen)).perform OpsRow.clash (committedAt db seen)
      (committedAt db n) = some (rows, writes)
  bound : place ≤ db.history.length
  kept : ∀ row ∈ rows, lookup (committedAt db n) row.key = lookup (committedAt db place) row.key
  renewed : ∀ row ∈ rows, lookup (committedAt db (place + 1)) row.key = some row
  others : ∀ k, (∀ row ∈ rows, row.key ≠ k) →
    lookup (committedAt db (place + 1)) k = lookup (committedAt db place) k

theorem renews_of_beatAt (placed : Placed settings db)
    (beat : BeatAt db webShellSessionId ownerId lastActivityAt id now seen place rows) :
    ∃ n, Renews db webShellSessionId ownerId now (now + seconds WebShellService.leaseSeconds)
      lastActivityAt seen n place rows := by
  obtain ⟨next, -, txn, found, done, log⟩ := beat
  obtain ⟨start, rfl, chronicle⟩ := placed.chronicled.chronicle
  have split : txn.log = [.clock now] ++ .ran (.heartbeatShell webShellSessionId ownerId now
      (now + seconds WebShellService.leaseSeconds) lastActivityAt) rows seen :: [] := log
  obtain ⟨n, le, ran, kept⟩ := chronicle.ran_of_committed next found done split
  obtain ⟨below, -⟩ := List.getElem?_eq_some_iff.mp next
  -- it has written the rows that it has returned
  have after : committedAt db (place + 1) = applyAll (committedAt db place) (rows.map .put) := by
    rw [committedAt, Db.Chronicle.stateAt_commit next found, Txn.view, chronicle.writes id txn found,
      log]
    simp [logged, OpsStatement.effects]
  have keys : ∀ {k : OpsKey}, k ∈ touched OpsStore (rows.map Write.put) ↔
      ∃ row ∈ rows, row.key = k := by
    intro k
    simp [touched, written, key]
  refine ⟨n, ⟨_, ran.performed⟩, below.le, ?_, ?_, ?_⟩
  · intro row member
    exact kept row.key (keys.mpr ⟨row, member, rfl⟩)
  · intro row member
    rw [after]
    refine lookup_applyAll_uniform _ (keys.mpr ⟨row, member, rfl⟩) ?_
    intro write isWrite same
    obtain ⟨row', member', rfl⟩ := List.mem_map.mp isWrite
    exact congrArg some (beaten_unique ran.performed member member' same)
  · intro k apart
    rw [after]
    refine lookup_applyAll_of_not_mem _ fun isTouched => ?_
    obtain ⟨row, member, same⟩ := keys.mp isTouched
    exact apart row member same

section Renewed

variable {expiresAt n : Nat}
  (renews : Renews db webShellSessionId ownerId now expiresAt lastActivityAt seen n place rows)
include renews

/-- A heartbeat that has not renewed both leaves all locks. -/
theorem Renews.locks_of_lost (lost : hasBoth rows = false) (hostId : Uuid) :
    (committedAt db (place + 1)).locks.lookup hostId =
      (committedAt db place).locks.lookup hostId := by
  obtain ⟨writes, done⟩ := renews.done
  have noLock : ∀ lock : HostLock, .lock lock ∉ rows := by
    intro lock member
    obtain ⟨-, session, also⟩ := lock_beaten done member
    have both : hasBoth rows = true :=
      Bool.and_eq_true_iff.mpr
        ⟨List.any_eq_true.mpr ⟨_, also, rfl⟩, List.any_eq_true.mpr ⟨_, member, rfl⟩⟩
    rw [both] at lost
    cases lost
  have same : lookup (committedAt db (place + 1)) (OpsKey.lock hostId) =
      lookup (committedAt db place) (OpsKey.lock hostId) := by
    apply renews.others
    intro row member isLock
    obtain ⟨lock, rfl, -⟩ := lock_of_key isLock
    exact noLock lock member
  apply Option.ext
  intro lock
  rw [← lookup_lock, ← lookup_lock, same]

/-- A heartbeat that has renewed both has found the session with its host, and leaves it so. -/
theorem Renews.holds_of_both (placed : Placed settings db) (both : hasBoth rows = true) :
    ∃ session lock, HoldsHost (committedAt db place) webShellSessionId ownerId session lock ∧
      Authenticated (committedAt db seen).toStore now session ∧
        HoldsHost (committedAt db (place + 1)) webShellSessionId ownerId
          { session with leaseExpiresAt := expiresAt, lastActivityAt := some lastActivityAt }
          { lock with expiresAt := expiresAt } := by
  obtain ⟨writes, done⟩ := renews.done
  obtain ⟨isShell, isLock⟩ := Bool.and_eq_true_iff.mp both
  obtain ⟨row, member, isRow⟩ := List.any_eq_true.mp isShell
  obtain ⟨renewed, unwraps⟩ := Option.isSome_iff_exists.mp isRow
  obtain rfl := (OpsRow.shells.unwrap_eq_some _ _).mp unwraps
  obtain ⟨row', member', isRow'⟩ := List.any_eq_true.mp isLock
  obtain ⟨renewed', unwraps'⟩ := Option.isSome_iff_exists.mp isRow'
  obtain rfl := (OpsRow.locks.unwrap_eq_some _ _).mp unwraps'
  obtain ⟨session, found, ⟨named, owned, active, authenticated⟩, rfl⟩ := shell_beaten done member
  obtain ⟨⟨lock, found', holder, owner, rfl⟩, -⟩ := lock_beaten done member'
  subst named
  -- both rows are still there when the heartbeat commits
  have isSession : lookup (committedAt db place) (OpsKey.shell session.webShellSessionId) =
      some (OpsRow.shell session) := (renews.kept _ member).symm.trans found
  have isHostLock : lookup (committedAt db place) (OpsKey.lock lock.hostId) =
      some (OpsRow.lock lock) := (renews.kept _ member').symm.trans found'
  have host := placed.host_eq renews.bound isSession isHostLock holder
  refine ⟨session, lock, ⟨lookup_shell.mp isSession, active, owned, ?_, holder, owner⟩,
    authenticated, ⟨lookup_shell.mp (renews.renewed _ member), active, owned, ?_, holder, owner⟩⟩
  · rw [host]
    exact lookup_lock.mp isHostLock
  · show (committedAt db (place + 1)).locks.lookup session.hostId = _
    rw [host]
    exact lookup_lock.mp (renews.renewed _ member')

/-- A heartbeat leaves logins and users. -/
theorem Renews.authenticated (session : WebShellSession)
    (before : Authenticated (committedAt db place).toStore now session) :
    Authenticated (committedAt db (place + 1)).toStore now session := by
  obtain ⟨writes, done⟩ := renews.done
  have login : ∀ sessionId : Uuid, lookup (committedAt db (place + 1)) (OpsKey.login sessionId) =
      lookup (committedAt db place) (OpsKey.login sessionId) := by
    intro sessionId
    apply renews.others
    intro row member isLogin
    rcases kind_beaten done member with ⟨other, rfl⟩ | ⟨other, rfl⟩ <;> cases isLogin
  have user : ∀ userId : Uuid, lookup (committedAt db (place + 1)) (OpsKey.user userId) =
      lookup (committedAt db place) (OpsKey.user userId) := by
    intro userId
    apply renews.others
    intro row member isUser
    rcases kind_beaten done member with ⟨other, rfl⟩ | ⟨other, rfl⟩ <;> cases isUser
  obtain ⟨entry, isEntry, unexpired, owner, isOwner, active⟩ := before
  refine ⟨entry, ?_, unexpired, owner, ?_, active⟩
  · rw [Option.mem_def, ← lookup_login, login, lookup_login]
    exact isEntry
  · rw [Option.mem_def, ← lookup_user, user, lookup_user]
    exact isOwner

end Renewed

/-- **A shell that has lost its host is told so.**  A heartbeat that answers that the shell may
go on has committed the session as active for its owner, with its lease renewed, and the lock of
its host as the session's, renewed likewise; the login behind it was valid in the state that its
statement has seen, and it still is in the committed one when nothing was committed in between.
When the session does not hold its host, or that login was not valid, the heartbeat answers that
the shell must close, and leaves all locks. -/
theorem heartbeat_told (settings : OpsSettings) {world : OpsWorld}
    (reached : ((opsSystem settings (· = OpsStore.empty)).restrict DrawsFresh).Reachable world)
    {webShellSessionId : Uuid} {ownerId : String} {lastActivityAt id : Nat}
    {reason? : Option WebShellService.CloseReason}
    (returned : Returned world.db webShellSessionId ownerId lastActivityAt id reason?) :
    ∃ now seen place rows,
      BeatAt world.db webShellSessionId ownerId lastActivityAt id now seen place rows ∧
      (reason? = none → ∃ session lock,
        HoldsHost (committedAt world.db (place + 1)) webShellSessionId ownerId session lock ∧
          session.leaseExpiresAt = now + seconds WebShellService.leaseSeconds ∧
            lock.expiresAt = now + seconds WebShellService.leaseSeconds ∧
              Authenticated (committedAt world.db seen).toStore now session ∧
                (seen = place →
                  Authenticated (committedAt world.db (place + 1)).toStore now session)) ∧
        ((∀ session lock,
            HoldsHost (committedAt world.db place) webShellSessionId ownerId session lock →
              ¬ Authenticated (committedAt world.db seen).toStore now session) → reason? ≠ none) ∧
          (reason? ≠ none → ∀ hostId, (committedAt world.db (place + 1)).locks.lookup hostId =
            (committedAt world.db place).locks.lookup hostId) := by
  have placed := (placed_inductive settings).of_reachable reached
  cases returned with
  | goesOn renewed =>
      obtain ⟨now, seen, place, rows, beat, both⟩ := beatAt_of_answered placed renewed
      obtain ⟨n, renews⟩ := renews_of_beatAt placed beat
      obtain ⟨session, lock, before, valid, after⟩ := renews.holds_of_both placed both.symm
      refine ⟨now, seen, place, rows, beat, ?_, ?_, ?_⟩
      · rintro -
        refine ⟨_, _, after, rfl, rfl, valid, ?_⟩
        rintro rfl
        exact renews.authenticated session valid
      · intro invalid
        exact absurd valid (invalid session lock before)
      · exact fun closes => absurd rfl closes
  | closes later lost read =>
      obtain ⟨now, seen, place, rows, beat, both⟩ := beatAt_of_answered placed lost
      obtain ⟨n, renews⟩ := renews_of_beatAt placed beat
      refine ⟨now, seen, place, rows, beat, ?_, ?_, ?_⟩
      · intro goesOn
        cases goesOn
      · exact fun _ => Option.some_ne_none _
      · exact fun _ => renews.locks_of_lost both.symm

end Runs

/-! ## A logout beside a heartbeat -/

/-- The unit of work is a committed heartbeat that has renewed both. -/
def hasRenewed (webShellSessionId : Uuid) (ownerId : String) (lastActivityAt : Nat)
    (txn : OpsTxn) : Bool :=
  match txn.call, txn.program with
  | .heartbeatShell id owner activity, .done (.refreshed true) =>
      decide (id = webShellSessionId ∧ owner = ownerId ∧ activity = lastActivityAt ∧
        txn.status = .committed)
  | _, _ => false

theorem answered_of_hasRenewed {db : OpsDb} {webShellSessionId : Uuid} {ownerId : String}
    {lastActivityAt id : Nat}
    (renewed : db.txns[id]?.any (hasRenewed webShellSessionId ownerId lastActivityAt) = true) :
    Answered db id (.heartbeatShell webShellSessionId ownerId lastActivityAt) (.refreshed true) := by
  obtain ⟨txn, found, has⟩ := (Option.any_eq_true _ _).mp renewed
  unfold hasRenewed at has
  split at has
  · rename_i call program
    obtain ⟨rfl, rfl, rfl, done⟩ := of_decide_eq_true has
    exact ⟨txn, found, call, done, program⟩
  · cases has

/-- The settings of a deployment that sets none. -/
def deploymentSettings : OpsSettings where
  worker := .default
  webShellMaxSessions := 5
  decryptJson _ _ _ := none

/-- Nothing has been done to the database. -/
def freshWorld : OpsWorld := ⟨0, { state := OpsStore.empty }⟩

/-- A user who may open web shells. -/
def shellPrincipal : Principal := ⟨7, 1, true⟩

/-- What is read of a host that can be connected to. -/
def hostReading : WebShellService.HostReading where
  enabled := some true
  target := some ⟨8, 1, .password, "web", "10.0.0.1", 22, "root"⟩
  hasKeys := true

/-- A call reads the clock and executes so many statements. -/
def calling (id statements : Nat) (call : OpsCall) : List (DbAct OpsCall) :=
  [.onDb (.begin call), .onDb (.clock id 0)] ++ List.replicate statements (.onDb (.perform id))

/-- A user signs in, opens a web shell and claims it, and its heartbeat executes its statement. -/
def beating : List (DbAct OpsCall) :=
  [.onDb (.begin (.changeAccounts [.putUser ⟨1, true⟩, .putLogin ⟨7, 1, seconds 3600⟩])),
    .onDb (.perform 0), .onDb (.perform 0), .onDb (.commit 0)] ++
  calling 1 5 (.createShell 3 4 shellPrincipal "api" hostReading) ++ [.onDb (.commit 1)] ++
  calling 2 3 (.claimShell 3 shellPrincipal "owner" true) ++ [.onDb (.commit 2)] ++
  calling 3 1 (.heartbeatShell 3 "owner" 5)

/-- The user signs out. -/
def signingOut : List (DbAct OpsCall) :=
  [.onDb (.begin (.changeAccounts [.deleteLogin 7])), .onDb (.perform 4), .onDb (.commit 4)]

/-- The shell goes on, with its host. -/
theorem heartbeat_told_active : ∃ world place session lock,
    (opsSystem deploymentSettings (· = OpsStore.empty)).exec freshWorld
        (beating ++ [.onDb (.commit 3)]) = some world ∧
      world.db.history[place]? = some 3 ∧
        HoldsHost (committedAt world.db (place + 1)) 3 "owner" session lock ∧
          session.leaseExpiresAt = lock.expiresAt := by
  have ran : ((opsSystem deploymentSettings (· = OpsStore.empty)).exec freshWorld
      (beating ++ [.onDb (.commit 3)])).any (fun world =>
        world.db.txns[3]?.any (hasRenewed 3 "owner" 5)) = true := by
    decide +kernel
  have along : (opsSystem deploymentSettings (· = OpsStore.empty)).Along DrawsFresh freshWorld
      (beating ++ [.onDb (.commit 3)]) := by
    decide +kernel
  obtain ⟨world, done, renewed⟩ := (Option.any_eq_true _ _).mp ran
  have reached : ((opsSystem deploymentSettings (· = OpsStore.empty)).restrict DrawsFresh).Reachable
      world := ⟨freshWorld, ⟨0, _, rfl, rfl⟩, System.leads_restrict_of_exec done along⟩
  obtain ⟨now, seen, place, rows, beat, goesOn, -, -⟩ :=
    heartbeat_told deploymentSettings reached (.goesOn (answered_of_hasRenewed renewed))
  obtain ⟨session, lock, holds, leased, locked, -⟩ := goesOn rfl
  exact ⟨world, place, session, lock, done, beat.next, holds, leased.trans locked.symm⟩

/-- When the logout commits between the statement of the heartbeat and its commit, the session
is active and renewed, and its login is gone. -/
theorem heartbeat_told_fails : ¬ ∀ (settings : OpsSettings) (world : OpsWorld),
    ((opsSystem settings (· = OpsStore.empty)).restrict DrawsFresh).Reachable world →
      ∀ (webShellSessionId : Uuid) (ownerId : String) (lastActivityAt id place : Nat),
        Returned world.db webShellSessionId ownerId lastActivityAt id none →
          world.db.history[place]? = some id →
            ∃ session lock now,
              HoldsHost (committedAt world.db (place + 1)) webShellSessionId ownerId session lock ∧
                Authenticated (committedAt world.db (place + 1)).toStore now session := by
  have ran : ((opsSystem deploymentSettings (· = OpsStore.empty)).exec freshWorld
      (beating ++ signingOut ++ [.onDb (.commit 3)])).any (fun world =>
        world.db.txns[3]?.any (hasRenewed 3 "owner" 5) &&
          decide (world.db.history[4]? = some 3 ∧
            ((committedAt world.db 5).shells.lookup 3).map (·.authSessionId) = some 7 ∧
              (committedAt world.db 5).logins.lookup 7 = none)) = true := by
    decide +kernel
  have along : (opsSystem deploymentSettings (· = OpsStore.empty)).Along DrawsFresh freshWorld
      (beating ++ signingOut ++ [.onDb (.commit 3)]) := by
    decide +kernel
  obtain ⟨world, done, facts⟩ := (Option.any_eq_true _ _).mp ran
  obtain ⟨renewed, facts⟩ := Bool.and_eq_true_iff.mp facts
  obtain ⟨next, isSession, signedOut⟩ := of_decide_eq_true facts
  intro told
  obtain ⟨session, lock, now, holds, login, isLogin, -⟩ := told deploymentSettings world
    ⟨freshWorld, ⟨0, _, rfl, rfl⟩, System.leads_restrict_of_exec done along⟩ 3 "owner" 5 3 4
    (.goesOn (answered_of_hasRenewed renewed)) next
  rw [holds.isSession] at isSession
  have names : session.authSessionId = 7 := Option.some.inj isSession
  rw [names] at isLogin
  exact absurd (isLogin.symm.trans signedOut) (Option.some_ne_none login)

end OpsComposer.Coordination
