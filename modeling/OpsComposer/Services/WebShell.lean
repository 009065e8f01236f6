import OpsComposer.Repositories.WebShell
import OpsComposer.Services.WorkerCoordinator
import OpsComposer.Domain.Errors

/-!
# The web-shell service

The transactions of `services/web_shell.py`.  What `create` and `claim` read of
hosts, credentials and host keys is an argument: the host row, the resolved
target and whether a host key is confirmed at that moment.
-/

set_option autoImplicit false

namespace OpsComposer.Services

open Domain Foundations Repositories

/-- The logged-in user on whose behalf a request is served. -/
structure Principal where
  sessionId : Uuid
  userId : Uuid
  /-- `Permission.WEB_SHELL` is among the permissions. -/
  webShell : Bool

namespace WebShellService

/-- `WEB_SHELL_TICKET_SECONDS`. -/
def ticketSeconds : Nat := 30

/-- `WEB_SHELL_LEASE_SECONDS`. -/
def leaseSeconds : Nat := 30

/-- The target that `resolve_host_ids` returns for a host with a usable credential. -/
structure ResolvedTarget where
  credentialId : Uuid
  credentialVersion : Nat
  credentialType : CredentialType
  name : String
  address : String
  sshPort : Nat
  username : String

/-- What `create` reads of the assets. -/
structure HostReading where
  /-- `enabled` of the host row, when there is one. -/
  enabled : Option Bool
  target : Option ResolvedTarget
  hasKeys : Bool

/-- The `WebShellSession(…)` that `create` adds. -/
def pendingSession (webShellSessionId hostId : Uuid) (principal : Principal) (instanceId : String)
    (target : ResolvedTarget) (now : Nat) : WebShellSession where
  webShellSessionId := webShellSessionId
  hostId := hostId
  actorUserId := principal.userId
  authSessionId := principal.sessionId
  credentialId := target.credentialId
  credentialVersion := target.credentialVersion
  credentialType := target.credentialType
  hostName := target.name
  hostAddress := target.address
  sshPort := target.sshPort
  username := target.username
  state := .pending
  apiInstanceId := instanceId
  ticketExpiresAt := now + seconds ticketSeconds
  leaseExpiresAt := now + seconds ticketSeconds
  createdAt := now

/-- `WEB_SHELL_STALE_RECOVERED`, when sessions were cleaned up. -/
def recordCleanup (cleaned : Nat × Store) : Store :=
  if cleaned.1 = 0 then cleaned.2 else cleaned.2.record { action := .webShellStaleRecovered }

/-- Clean up, check capacity and host, then add a pending session and take the
host's lock for it. -/
def create (store : Store) (maxSessions : Nat) (webShellSessionId hostId : Uuid)
    (principal : Principal) (instanceId : String) (reading : HostReading) (now : Nat) :
    Except OpsError (WebShellSession × Store) :=
  if principal.webShell = false then .error .permissionDenied
  else
    let cleaned := recordCleanup (WebShellRepository.cleanupExpired store now)
    if maxSessions ≤ WebShellRepository.countLive cleaned now then .error .webShellCapacity
    else
      match reading.enabled, reading.target with
      | none, _ => .error (.notFound "host not found")
      | some false, _ => .error (.validation "host is disabled")
      | some true, none => .error (.validation "host credential is missing or disabled")
      | some true, some target =>
          if reading.hasKeys = false then .error .hostKeyConfirmationRequired
          else
            let session := pendingSession webShellSessionId hostId principal instanceId target now
            match WebShellRepository.add cleaned session with
            | none => .error .databaseFault
            | some added =>
                let locked := WebShellRepository.acquireHostLock added hostId webShellSessionId
                  ("pending:" ++ instanceId) now (now + seconds ticketSeconds)
                if locked.1 = false then .error .hostBusy
                else
                  .ok (session, locked.2.record
                    { action := .webShellRequested
                      actorUserId := some principal.userId
                      resourceId := some webShellSessionId })

/-- Activate a pending session for its own user; `launchable` tells that the
credential decrypts and a host key is confirmed. -/
def claim (store : Store) (webShellSessionId : Uuid) (principal : Principal) (ownerId : String)
    (launchable : Bool) (now : Nat) : Except OpsError (WebShellSession × Store) :=
  if principal.webShell = false then .error .permissionDenied
  else
    match WebShellRepository.get store webShellSessionId with
    | none => .error .webShellSessionExpired
    | some current =>
        if current.actorUserId ≠ principal.userId ∨ current.authSessionId ≠ principal.sessionId ∨
            current.state ≠ .pending ∨ current.ticketExpiresAt ≤ now then
          .error .webShellSessionExpired
        else
          match WebShellRepository.activate store webShellSessionId principal.sessionId ownerId now
            (now + seconds leaseSeconds) with
          | .error .hostLockLost => .error .databaseFault
          | .ok none => .error .webShellSessionExpired
          | .ok (some (active, stored)) =>
              if launchable = false then .error .webShellUnavailable
              else
                .ok (active, stored.record
                  { action := .webShellStarted
                    actorUserId := some principal.userId
                    resourceId := some webShellSessionId })

/-- Why the caller of a heartbeat must close its shell. -/
inductive CloseReason where
  | userRequested
  | authSessionInvalid
  deriving DecidableEq

/-- The refreshing transaction; a second one reads why nothing was refreshed. -/
def heartbeat (store : Store) (webShellSessionId : Uuid) (ownerId : String)
    (lastActivityAt now : Nat) : Option CloseReason × Store :=
  let refreshed := WebShellRepository.heartbeat store webShellSessionId ownerId now
    (now + seconds leaseSeconds) lastActivityAt
  if refreshed.1 then (none, refreshed.2)
  else
    match WebShellRepository.get refreshed.2 webShellSessionId with
    | none => (some .authSessionInvalid, refreshed.2)
    | some current =>
        if current.ownerId = some ownerId ∧ current.state = .closeRequested then
          (some .userRequested, refreshed.2)
        else (some .authSessionInvalid, refreshed.2)

/-- `request_close`: only the user of a session closes it. -/
def requestClose (store : Store) (webShellSessionId : Uuid) (principal : Principal) (now : Nat) :
    Store :=
  match WebShellRepository.get store webShellSessionId with
  | none => store
  | some current =>
      if current.actorUserId ≠ principal.userId then store
      else
        match current.state with
        | .pending =>
            (WebShellRepository.delete store webShellSessionId none).2.record
              { action := .webShellFinished
                actorUserId := some current.actorUserId
                resourceId := some webShellSessionId }
        | .active =>
            let marked := WebShellRepository.markCloseRequested store webShellSessionId
              principal.userId now
            if marked.1 then
              marked.2.record
                { action := .webShellCloseRequested
                  actorUserId := some principal.userId
                  resourceId := some webShellSessionId }
            else marked.2
        | .closeRequested => store

/-- `finish`, for the owner of the session. -/
def finish (store : Store) (webShellSessionId : Uuid) (ownerId : String) : Store :=
  match WebShellRepository.delete store webShellSessionId (some ownerId) with
  | (none, stored) => stored
  | (some session, stored) =>
      stored.record
        { action := .webShellFinished
          actorUserId := some session.actorUserId
          resourceId := some webShellSessionId }

/-- `recover_stale`. -/
def recoverStale (store : Store) (now : Nat) : Store :=
  recordCleanup (WebShellRepository.cleanupExpired store now)

/-! ## What the transactions do -/

@[simp] theorem recordCleanup_shells (cleaned : Nat × Store) :
    (recordCleanup cleaned).shells = cleaned.2.shells := by
  unfold recordCleanup
  split <;> rfl

/-- Cleaning up touches session and lock rows only. -/
theorem recordCleanup_cleanupExpired (store : Store) (now : Nat) :
    ∃ audit, recordCleanup (WebShellRepository.cleanupExpired store now) =
      { WebShellRepository.deleteWhere store (WebShellRepository.Expired now) with
        audit := audit } := by
  unfold recordCleanup
  split
  · exact ⟨store.audit, rfl⟩
  · exact ⟨_, rfl⟩

/-- What opening a session does to the store: expired sessions are cleaned up,
then a pending session is added under a free key and takes the host's lock,
which no unexpired row held. -/
structure Opens (store : Store) (maxSessions webShellSessionId hostId : Nat)
    (principal : Principal) (instanceId : String) (now : Nat) (target : ResolvedTarget)
    (store' : Store) : Prop where
  permitted : principal.webShell = true
  capacity : WebShellRepository.countLive
    (WebShellRepository.deleteWhere store (WebShellRepository.Expired now)) now < maxSessions
  sessionFree : (WebShellRepository.deleteWhere store (WebShellRepository.Expired now)).shells.lookup
    webShellSessionId = none
  hostFree : ∀ lock, (WebShellRepository.deleteWhere store
    (WebShellRepository.Expired now)).locks.lookup hostId = some lock → lock.expiresAt ≤ now
  shells : store'.shells =
    (WebShellRepository.deleteWhere store (WebShellRepository.Expired now)).shells.put
      (pendingSession webShellSessionId hostId principal instanceId target now)
  locks : store'.locks =
    (WebShellRepository.deleteWhere store (WebShellRepository.Expired now)).locks.put
      (WebShellRepository.shellLock hostId webShellSessionId ("pending:" ++ instanceId) now
        (now + seconds ticketSeconds))
  runs : store'.runs = store.runs
  targets : store'.targets = store.targets
  events : store'.events = store.events
  secretInputs : store'.secretInputs = store.secretInputs
  leases : store'.leases = store.leases

theorem create_spec {store store' : Store} {maxSessions webShellSessionId hostId : Nat}
    {principal : Principal} {instanceId : String} {reading : HostReading} {now : Nat}
    {session : WebShellSession}
    (done : create store maxSessions webShellSessionId hostId principal instanceId reading now =
      .ok (session, store')) :
    ∃ target, Opens store maxSessions webShellSessionId hostId principal instanceId now target
      store' := by
  obtain ⟨audit, cleanedEq⟩ := recordCleanup_cleanupExpired store now
  simp only [create, cleanedEq] at done
  split at done
  · cases done
  rename_i permitted
  split at done
  · cases done
  rename_i capacity
  split at done
  · cases done
  · cases done
  · cases done
  rename_i target _ _
  split at done
  · cases done
  split at done
  · cases done
  rename_i added inserted
  obtain ⟨shells, isFree, rfl⟩ := Option.map_eq_some_iff.mp inserted
  obtain ⟨sessionFree, rfl⟩ := Table.insert?_eq_some.mp isFree
  unfold WebShellRepository.acquireHostLock at done
  split at done
  · simp at done
  rename_i hostFree
  simp only [Bool.true_eq_false, if_false, Except.ok.injEq, Prod.mk.injEq] at done
  obtain ⟨_, rfl⟩ := done
  refine ⟨target, by simpa using permitted, Nat.not_le.mp capacity, sessionFree, ?_, rfl, rfl, rfl,
    rfl, rfl, rfl, rfl⟩
  intro lock found
  exact Nat.not_lt.mp fun unexpired => hostFree ⟨lock, found, unexpired⟩

/-- What activating a session does to the store: the pending session of the
caller becomes `ACTIVE` under the owner, which also gets its unexpired lock. -/
structure Activates (store : Store) (webShellSessionId : Uuid) (principal : Principal)
    (ownerId : String) (now : Nat) (current : WebShellSession) (store' : Store) : Prop where
  permitted : principal.webShell = true
  found : store.shells.lookup webShellSessionId = some current
  actor : current.actorUserId = principal.userId
  activatable : WebShellRepository.Activatable store webShellSessionId principal.sessionId now current
  locked : (store.locks.select (WebShellRepository.UnexpiredLock webShellSessionId now)).length = 1
  shells : ∀ id, store'.shells.lookup id =
    if webShellSessionId = id then
      some (WebShellRepository.activated ownerId now (now + seconds leaseSeconds) current)
    else store.shells.lookup id
  locks : ∀ host, store'.locks.lookup host = (store.locks.lookup host).map fun lock =>
    if WebShellRepository.UnexpiredLock webShellSessionId now lock then
      { lock with ownerId := ownerId, expiresAt := now + seconds leaseSeconds }
    else lock
  runs : store'.runs = store.runs
  targets : store'.targets = store.targets
  events : store'.events = store.events
  secretInputs : store'.secretInputs = store.secretInputs
  leases : store'.leases = store.leases

theorem claim_spec {store store' : Store} {webShellSessionId : Uuid} {principal : Principal}
    {ownerId : String} {launchable : Bool} {now : Nat} {session : WebShellSession}
    (done : claim store webShellSessionId principal ownerId launchable now =
      .ok (session, store')) :
    ∃ current, Activates store webShellSessionId principal ownerId now current store' := by
  unfold claim at done
  split at done
  · cases done
  rename_i permitted
  split at done
  · cases done
  rename_i current found
  split at done
  · cases done
  rename_i usable
  split at done
  · cases done
  · cases done
  rename_i active stored activation
  split at done
  · cases done
  simp only [Except.ok.injEq, Prod.mk.injEq] at done
  obtain ⟨_, rfl⟩ := done
  unfold WebShellRepository.activate at activation
  split at activation
  · cases activation
  rename_i chosen rest selected
  split at activation
  · rename_i locked
    simp only [Except.ok.injEq, Option.some.injEq, Prod.mk.injEq] at activation
    obtain ⟨_, rfl⟩ := activation
    have member : chosen ∈ store.shells.select (WebShellRepository.Activatable store
        webShellSessionId principal.sessionId now) := by
      rw [selected]
      exact List.mem_cons_self ..
    obtain ⟨present, activatable⟩ := Table.mem_select.mp member
    obtain rfl : chosen = current := by
      rw [activatable.1] at present
      exact Option.some.inj (present.symm.trans found)
    have actor : chosen.actorUserId = principal.userId := by
      by_contra other
      exact usable (.inl other)
    refine ⟨chosen, by simpa using permitted, found, actor, activatable, locked, ?_, ?_, rfl, rfl, rfl,
      rfl, rfl⟩
    · intro id
      simp only [Store.record_shells, Table.lookup_update]
      by_cases same : webShellSessionId = id
      · subst same
        have stored : store.shells.lookup webShellSessionId = some chosen := found
        rw [if_pos rfl, stored, Option.map_some, if_pos activatable]
      · rw [if_neg same]
        cases other : store.shells.lookup id with
        | none => rfl
        | some row =>
            have apart : ¬ WebShellRepository.Activatable store webShellSessionId
                principal.sessionId now row := by
              intro holds
              exact same (holds.1.symm.trans (Table.key_of_lookup other))
            rw [Option.map_some, if_neg apart]
    · intro host
      simp only [Store.record_locks, Table.lookup_update]
  · cases activation

/-- A heartbeat commits the statement's store, whatever it answers. -/
theorem heartbeat_store (store : Store) (webShellSessionId : Uuid) (ownerId : String)
    (lastActivityAt now : Nat) :
    (heartbeat store webShellSessionId ownerId lastActivityAt now).2 =
      (WebShellRepository.heartbeat store webShellSessionId ownerId now
        (now + seconds leaseSeconds) lastActivityAt).2 := by
  simp only [heartbeat]
  split
  · rfl
  · split
    · rfl
    · split <;> rfl

end WebShellService

end OpsComposer.Services
