import OpsComposer.Repositories.Store

/-!
# The web-shell repository

The statements of `repositories/web_shell.py` on the committed store.  Deleting
a session row deletes the lock row that refers to it, by the foreign key of
`host_execution_locks`; a lock that a run has taken over refers to no session
and stays.
-/

set_option autoImplicit false

namespace OpsComposer.Repositories.WebShellRepository

open Domain Foundations

/-- The `WHERE` clause of `cleanup_expired`. -/
abbrev Expired (now : Nat) (session : WebShellSession) : Prop :=
  (session.state = .pending ∧ session.ticketExpiresAt ≤ now) ∨
    (session.state ≠ .pending ∧ session.leaseExpiresAt ≤ now)

/-- Delete session rows, and the lock rows that refer to them. -/
def deleteWhere (store : Store) (Gone : WebShellSession → Prop) [DecidablePred Gone] : Store :=
  { store with
    shells := store.shells.delete Gone
    locks := store.locks.delete fun lock =>
      ∃ id ∈ lock.shellId?, ∃ session ∈ store.shells.lookup id, Gone session }

/-- `cleanup_expired`, and how many sessions it has deleted. -/
def cleanupExpired (store : Store) (now : Nat) : Nat × Store :=
  ((store.shells.select (Expired now)).length, deleteWhere store (Expired now))

/-- `count_live`. -/
def countLive (store : Store) (now : Nat) : Nat :=
  (store.shells.select fun session => ¬ Expired now session).length

/-- `add`. -/
def add (store : Store) (session : WebShellSession) : Option Store :=
  (store.shells.insert? session).map fun shells => { store with shells := shells }

/-- The row that a web shell writes for its host. -/
def shellLock (hostId webShellSessionId : Uuid) (ownerId : String) (now expiresAt : Nat) :
    HostLock where
  hostId := hostId
  holder := .shell webShellSessionId
  ownerId := ownerId
  acquiredAt := now
  expiresAt := expiresAt

/-- Take the lock of a host if it is free or has expired. -/
def acquireHostLock (store : Store) (hostId webShellSessionId : Uuid) (ownerId : String)
    (now expiresAt : Nat) : Bool × Store :=
  if ∃ lock ∈ store.locks.lookup hostId, now < lock.expiresAt then (false, store)
  else
    (true, { store with
      locks := store.locks.put (shellLock hostId webShellSessionId ownerId now expiresAt) })

/-- `get`. -/
def get (store : Store) (webShellSessionId : Uuid) : Option WebShellSession :=
  store.shells.lookup webShellSessionId

/-- `EXISTS (SELECT 1 FROM sessions s JOIN users u …)`: the login session behind
a web shell has not expired and its user is active. -/
abbrev Authenticated (store : Store) (now : Nat) (session : WebShellSession) : Prop :=
  ∃ login ∈ store.logins.lookup session.authSessionId, now < login.expiresAt ∧
    ∃ user ∈ store.users.lookup login.userId, user.active

/-- The `WHERE` clause of the update in `activate`. -/
abbrev Activatable (store : Store) (webShellSessionId authSessionId : Uuid) (now : Nat)
    (session : WebShellSession) : Prop :=
  session.webShellSessionId = webShellSessionId ∧ session.authSessionId = authSessionId ∧
    session.state = .pending ∧ now < session.ticketExpiresAt ∧ Authenticated store now session

/-- A session as its activation writes it. -/
def activated (ownerId : String) (now expiresAt : Nat) (session : WebShellSession) :
    WebShellSession :=
  { session with
    state := .active
    ownerId := some ownerId
    connectedAt := some now
    lastActivityAt := some now
    leaseExpiresAt := expiresAt }

@[simp] theorem activated_webShellSessionId (ownerId : String) (now expiresAt : Nat)
    (session : WebShellSession) :
    (activated ownerId now expiresAt session).webShellSessionId = session.webShellSessionId := rfl

/-- `RuntimeError("Web Shell host lock was lost before connection")`. -/
inductive ActivateError where
  | hostLockLost
  deriving DecidableEq

/-- The lock row that `activate` hands over. -/
abbrev UnexpiredLock (webShellSessionId : Uuid) (now : Nat) (lock : HostLock) : Prop :=
  lock.shellId? = some webShellSessionId ∧ now < lock.expiresAt

/-- Move a pending session to `ACTIVE` and hand its unexpired lock to the owner. -/
def activate (store : Store) (webShellSessionId authSessionId : Uuid) (ownerId : String)
    (now expiresAt : Nat) : Except ActivateError (Option (WebShellSession × Store)) :=
  match store.shells.select (Activatable store webShellSessionId authSessionId now) with
  | [] => .ok none
  | session :: _ =>
      if (store.locks.select (UnexpiredLock webShellSessionId now)).length = 1 then
        .ok (some (activated ownerId now expiresAt session, { store with
          shells := store.shells.update (Activatable store webShellSessionId authSessionId now)
            (activated ownerId now expiresAt) (activated_webShellSessionId ownerId now expiresAt)
          locks := store.locks.update (UnexpiredLock webShellSessionId now)
            (fun lock => { lock with ownerId := ownerId, expiresAt := expiresAt }) fun _ => rfl }))
      else .error .hostLockLost

/-- The `WHERE` clause of the common table expression `refreshed`. -/
abbrev Refreshable (store : Store) (webShellSessionId : Uuid) (ownerId : String) (now : Nat)
    (session : WebShellSession) : Prop :=
  session.webShellSessionId = webShellSessionId ∧ session.ownerId = some ownerId ∧
    session.state = .active ∧ Authenticated store now session

/-- The `WHERE` clause of the common table expression `lock_refreshed`. -/
abbrev RefreshableLock (store : Store) (webShellSessionId : Uuid) (ownerId : String) (now : Nat)
    (lock : HostLock) : Prop :=
  (∃ session ∈ store.shells.rows, Refreshable store webShellSessionId ownerId now session ∧
    lock.shellId? = some session.webShellSessionId) ∧ lock.ownerId = ownerId

theorem hostId_extended (expiresAt : Nat) (lock : HostLock) :
    ({ lock with expiresAt := expiresAt } : HostLock).hostId = lock.hostId := rfl

/-- Refresh the session and, if it is still there, its lock; the answer tells
whether both were refreshed, the session is refreshed either way. -/
def heartbeat (store : Store) (webShellSessionId : Uuid) (ownerId : String)
    (now expiresAt lastActivityAt : Nat) : Bool × Store :=
  (decide ((∃ session ∈ store.shells.rows,
        Refreshable store webShellSessionId ownerId now session) ∧
      ∃ lock ∈ store.locks.rows, RefreshableLock store webShellSessionId ownerId now lock),
    { store with
      shells := store.shells.update (Refreshable store webShellSessionId ownerId now)
        (fun session =>
          { session with
            leaseExpiresAt := expiresAt
            lastActivityAt := some lastActivityAt }) fun _ => rfl
      locks := store.locks.update (RefreshableLock store webShellSessionId ownerId now)
        (fun lock => { lock with expiresAt := expiresAt }) (hostId_extended expiresAt) })

/-- The `WHERE` clause of `mark_close_requested`. -/
abbrev Closable (webShellSessionId actorUserId : Uuid) (session : WebShellSession) : Prop :=
  session.webShellSessionId = webShellSessionId ∧ session.actorUserId = actorUserId ∧
    session.state = .active

/-- `mark_close_requested`, and whether there was such a session. -/
def markCloseRequested (store : Store) (webShellSessionId actorUserId : Uuid) (now : Nat) :
    Bool × Store :=
  (decide (∃ session ∈ store.shells.rows, Closable webShellSessionId actorUserId session),
    { store with
      shells := store.shells.update (Closable webShellSessionId actorUserId)
        (fun session => { session with state := .closeRequested, closeRequestedAt := some now })
        fun _ => rfl })

/-- The row that `delete` selects: by its key, and by the owner when one is given. -/
abbrev Deletable (webShellSessionId : Uuid) (ownerId : Option String)
    (session : WebShellSession) : Prop :=
  session.webShellSessionId = webShellSessionId ∧ (ownerId = none ∨ session.ownerId = ownerId)

/-- `delete`, with the session that it has deleted. -/
def delete (store : Store) (webShellSessionId : Uuid) (ownerId : Option String) :
    Option WebShellSession × Store :=
  ((store.shells.select (Deletable webShellSessionId ownerId)).head?,
    deleteWhere store (Deletable webShellSessionId ownerId))

end OpsComposer.Repositories.WebShellRepository
