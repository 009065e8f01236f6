import OpsComposer.Coordination.Statements

/-!
# The logs with which the operations on runs and web shells end

What a transaction that comes to its end has executed: one shape of the log for each
operation that adds, claims, opens or closes something (`Outcome`), with what its program has
found on the way.  Of the other operations the log says which statements it may have.  An
operation that fails has no such log.
-/

set_option autoImplicit false

namespace OpsComposer.Coordination

open Domain Foundations Repositories Services
open Program (bind_assoc execute_bind run_bind now_bind Ends Issues ends_done ends_fail ends_run
  ends_clock ends_orFail ends_raiseIf)

/-! ## Parts of logs -/

/-- The events of the inserts of target rows. -/
inductive TargetsInserted : List RunTarget → List OpsEvent → Prop where
  | nil : TargetsInserted [] []
  | cons {target : RunTarget} {targets : List RunTarget} {rows : List OpsRow} {seen : Nat}
      {events : List OpsEvent} (rest : TargetsInserted targets events) :
      TargetsInserted (target :: targets) (.ran (.insertTarget target) rows seen :: events)

/-- The events of `storeSecrets`. -/
inductive SecretsStored (draft : RunService.Draft) : List OpsEvent → Prop where
  | none (absent : draft.secretRow = .none) : SecretsStored draft []
  | some {input : RunSecretInput} {rows : List OpsRow} {seen : Nat}
      (present : draft.secretRow = .some input) :
      SecretsStored draft [.ran (.addSecretInputs input) rows seen]

/-- The events of `appendEvent`. -/
inductive EventAppended (event : RunEvent) : List OpsEvent → Prop where
  | intro {rows rows' : List OpsRow} {seen seen' : Nat} {run : Run} (isRun : run? rows = some run) :
      EventAppended event
        [.ran (.nextSequence event.runId) rows seen,
          .ran (.insertEvent { event with sequence := run.nextEventSequence - 1 }) rows' seen']

/-- The events of `refreshLease`. -/
inductive LeaseRefreshed (workerId : String) (runId : Option Uuid) (now expiresAt : Nat) :
    List OpsEvent → Prop where
  | intro {rows rows' : List OpsRow} {seen seen' : Nat} :
      LeaseRefreshed workerId runId now expiresAt
        [.ran (.upsertLease
            { workerId := workerId, runId := runId, heartbeatAt := now, expiresAt := expiresAt })
            rows seen,
          .ran (.refreshLocks workerId expiresAt) rows' seen']

/-- The events of `lockHosts`, with the number of the locks that were taken. -/
inductive HostsLocked (now : Nat) (fresh : Uuid → HostLock) :
    List Uuid → Nat → List OpsEvent → Prop where
  | nil : HostsLocked now fresh [] 0 []
  | cons {host : Uuid} {hosts : List Uuid} {taken seen : Nat} {rows : List OpsRow}
      {events : List OpsEvent} (rest : HostsLocked now fresh hosts taken events) :
      HostsLocked now fresh (host :: hosts) (rows.length + taken)
        (.ran (.lockHost (fresh host) now) rows seen :: events)

/-- The events of a unit of work of the authentication service. -/
inductive AccountsChanged : List AccountStatement → List OpsEvent → Prop where
  | nil : AccountsChanged [] []
  | cons {statement : AccountStatement} {statements : List AccountStatement} {rows : List OpsRow}
      {seen : Nat} {events : List OpsEvent} (rest : AccountsChanged statements events) :
      AccountsChanged (statement :: statements) (.ran statement.ops rows seen :: events)

/-- The statements of the operations that neither create, claim nor open anything. -/
def ordinary : OpsStatement → Bool
  | .getRun _ => true
  | .requestCancel _ _ => true
  | .cancelTargets _ _ => true
  | .upsertLease _ => true
  | .refreshLocks _ _ => true
  | .recoverStale _ => true
  | .markRunning _ _ => true
  | .markTargetsRunning _ _ => true
  | .finishTargets _ _ _ => true
  | .finishRun _ _ _ _ => true
  | .releaseLocks _ => true
  | .clearLease _ _ => true
  | .finishTarget _ _ _ => true
  | .nextSequence _ => true
  | .insertEvent _ => true
  | .consumeSecretInputs _ => true
  | _ => false

/-- The operations with only such statements. -/
def OpsCall.ordinary : OpsCall → Bool
  | .cancel _ _ => true
  | .consumeSecretInputs _ _ => true
  | .heartbeat _ _ => true
  | .recoverStale => true
  | .markRunning _ => true
  | .recordEvent _ _ _ => true
  | .finishTarget _ _ => true
  | .finish _ _ _ _ => true
  | _ => false

/-! ## Logs -/

section Outcomes

variable (settings : OpsSettings)

/-- The log of a call that has come to its answer. -/
inductive Outcome : OpsCall → OpsAnswer → List OpsEvent → Prop where
  | replayed {requestedBy : Uuid} {idempotencyKey fingerprint : String} {rows : List OpsRow}
      {seen : Nat} (same : ∀ run, run? rows = some run → run.requestFingerprint = fingerprint) :
      Outcome (.lookUp requestedBy idempotencyKey fingerprint) (.replayed (run? rows))
        [.ran (.getByIdempotencyKey requestedBy idempotencyKey) rows seen]
  | created {draft : RunService.Draft} {unconfirmed : List Uuid} {run : Run} {rows : List OpsRow}
      {seen : Nat} {inserts secrets queued : List OpsEvent} (isNew : run? rows = some run)
      (same : run.requestFingerprint = draft.fingerprint)
      (confirmed : ∀ target ∈ draft.targets, target.hostId ∉ unconfirmed)
      (inserted : TargetsInserted draft.targetRows inserts)
      (stored : SecretsStored draft secrets) (appended : EventAppended draft.queuedEvent queued) :
      Outcome (.persist draft unconfirmed) (.persisted run true)
        ([.ran (.insertRun { draft.run with nextEventSequence := 1 }) rows seen] ++ inserts ++
          secrets ++ queued)
  | found {draft : RunService.Draft} {unconfirmed : List Uuid} {run : Run}
      {rows rows' : List OpsRow} {seen seen' : Nat} (notNew : run? rows = none)
      (isThere : run? rows' = some run) (same : run.requestFingerprint = draft.fingerprint) :
      Outcome (.persist draft unconfirmed) (.persisted run false)
        [.ran (.insertRun { draft.run with nextEventSequence := 1 }) rows seen,
          .ran (.getByIdempotencyKey draft.requestedBy draft.idempotencyKey) rows' seen']
  | idle {workerId : String} {skipped : List Uuid} {now seen : Nat} {rows : List OpsRow}
      {lease : List OpsEvent} (none : run? rows = .none)
      (refreshed : LeaseRefreshed workerId .none now (settings.worker.leaseUntil now) lease) :
      Outcome (.claim workerId skipped) (.claimed .none)
        ([.clock now] ++ lease ++ [.ran (.claimNext workerId now skipped) rows seen])
  | claimed {workerId : String} {skipped : List Uuid} {now s s' s'' : Nat} {run : Run}
      {rows hosts expected : List OpsRow} {taken : Nat} {lease locks lease' : List OpsEvent}
      (isChosen : run? rows = some run)
      (refreshed : LeaseRefreshed workerId none now (settings.worker.leaseUntil now) lease)
      (locked : HostsLocked now
        (RunRepository.runLock run.runId workerId now (settings.worker.leaseUntil now))
        (hostsOf hosts) taken locks)
      (all : taken = expected.length)
      (refreshed' : LeaseRefreshed workerId (some run.runId) now (settings.worker.leaseUntil now)
        lease') :
      Outcome (.claim workerId skipped) (.claimed (some run))
        ([.clock now] ++ lease ++
          [.ran (.claimNext workerId now skipped) rows s, .ran (.targets run.runId) hosts s'] ++
          locks ++ [.ran (.targets run.runId) expected s''] ++ lease')
  | opened {webShellSessionId hostId : Uuid} {principal : Principal} {instanceId : String}
      {reading : WebShellService.HostReading} {target : WebShellService.ResolvedTarget}
      {now s s' s'' t t' : Nat} {rows gone live added taken : List OpsRow}
      {session : WebShellSession} (permitted : principal.webShell = true)
      (capacity : countShells live < settings.webShellMaxSessions)
      (enabled : reading.enabled = some true) (isTarget : reading.target = some target)
      (hasKeys : reading.hasKeys = true) (isAdded : shell? added = some session)
      (acquired : taken ≠ []) :
      Outcome (.createShell webShellSessionId hostId principal instanceId reading)
        (.opened session)
        [.clock now, .ran .acquireAdmissionLock rows s, .ran (.cleanupExpired now) gone s',
          .ran (.countLive now) live s'',
          .ran (.addShell (WebShellService.pendingSession webShellSessionId hostId principal
            instanceId target now)) added t,
          .ran (.lockHost (WebShellRepository.shellLock hostId webShellSessionId
            ("pending:" ++ instanceId) now (now + seconds WebShellService.ticketSeconds)) now)
            taken t']
  | launched {webShellSessionId : Uuid} {principal : Principal} {ownerId : String}
      {now s s' s'' : Nat} {rows rows' handed : List OpsRow} {current active : WebShellSession}
      (permitted : principal.webShell = true) (isThere : shell? rows = some current)
      (actor : current.actorUserId = principal.userId)
      (session : current.authSessionId = principal.sessionId)
      (pending : current.state = .pending) (unexpired : now < current.ticketExpiresAt)
      (isActive : shell? rows' = some active) (one : handed.length = 1) :
      Outcome (.claimShell webShellSessionId principal ownerId true) (.opened active)
        [.clock now, .ran (.getShell webShellSessionId true) rows s,
          .ran (.activate webShellSessionId principal.sessionId ownerId now
            (now + seconds WebShellService.leaseSeconds)) rows' s',
          .ran (.handLock webShellSessionId ownerId now
            (now + seconds WebShellService.leaseSeconds)) handed s'']
  | beaten {webShellSessionId : Uuid} {ownerId : String} {lastActivityAt now seen : Nat}
      {rows : List OpsRow} :
      Outcome (.heartbeatShell webShellSessionId ownerId lastActivityAt)
        (.refreshed (rows.any (fun row => (OpsRow.shells.unwrap row).isSome) &&
          rows.any fun row => (OpsRow.locks.unwrap row).isSome))
        [.clock now, .ran (.heartbeatShell webShellSessionId ownerId now
          (now + seconds WebShellService.leaseSeconds) lastActivityAt) rows seen]
  | shown {webShellSessionId : Uuid} {seen : Nat} {rows : List OpsRow} :
      Outcome (.getShell webShellSessionId) (.current (shell? rows))
        [.ran (.getShell webShellSessionId false) rows seen]
  | closeIgnored {webShellSessionId : Uuid} {principal : Principal} {seen : Nat}
      {rows : List OpsRow} :
      Outcome (.requestClose webShellSessionId principal) .written
        [.ran (.getShell webShellSessionId true) rows seen]
  | withdrawn {webShellSessionId : Uuid} {principal : Principal} {s s' : Nat}
      {rows rows' : List OpsRow} {current : WebShellSession} (isThere : shell? rows = some current)
      (actor : current.actorUserId = principal.userId) (pending : current.state = .pending) :
      Outcome (.requestClose webShellSessionId principal) .written
        [.ran (.getShell webShellSessionId true) rows s,
          .ran (.deleteShell webShellSessionId none) rows' s']
  | closing {webShellSessionId : Uuid} {principal : Principal} {now s s' : Nat}
      {rows rows' : List OpsRow} {current : WebShellSession} (isThere : shell? rows = some current)
      (actor : current.actorUserId = principal.userId) (active : current.state = .active) :
      Outcome (.requestClose webShellSessionId principal) .written
        [.ran (.getShell webShellSessionId true) rows s, .clock now,
          .ran (.markCloseRequested webShellSessionId principal.userId now) rows' s']
  | ended {webShellSessionId : Uuid} {ownerId : String} {seen : Nat} {rows : List OpsRow} :
      Outcome (.finishShell webShellSessionId ownerId) .written
        [.ran (.deleteShell webShellSessionId (some ownerId)) rows seen]
  | cleaned {now s s' : Nat} {rows gone : List OpsRow} :
      Outcome .recoverShells (.recovered (countShells gone))
        [.ran .acquireAdmissionLock rows s, .clock now, .ran (.cleanupExpired now) gone s']
  | changed {statements : List AccountStatement} {log : List OpsEvent}
      (run : AccountsChanged statements log) : Outcome (.changeAccounts statements) .written log
  | plain {call : OpsCall} {answer : OpsAnswer} {log : List OpsEvent}
      (isPlain : call.ordinary = true)
      (only : ∀ statement rows seen,
        .ran statement rows seen ∈ log → ordinary statement = true) :
      Outcome call answer log

/-! ## Programs -/

variable {settings} {told : OpsStatement → List OpsRow → Prop} {α : Type}
  {Q : α → List OpsEvent → Prop} {log : List OpsEvent}

variable {allowed : OpsStatement → Prop} {principal : Principal} {event : RunEvent}
  {next : Unit → OpsProgram α} {webShellSessionId : Uuid}

theorem ends_perform {statement : OpsStatement}
    (each : ∀ rows seen, Ends told Q (log ++ [.ran statement rows seen]) (next ())) :
    Ends told Q log (perform statement >>= next) :=
  ends_run fun rows seen _ => each rows seen

theorem ends_appendEvent
    (each : ∀ events, EventAppended event events → Ends told Q (log ++ events) (next ())) :
    Ends told Q log (appendEvent event >>= next) := by
  rw [appendEvent, bind_assoc, execute_bind]
  refine ends_run fun rows seen _ => ?_
  simp only [bind_assoc]
  refine ends_orFail fun run isRun => ends_perform fun rows' seen' => ?_
  rw [List.append_assoc]
  exact each _ (.intro isRun)

theorem ends_insertTargets {targets : List RunTarget}
    (each : ∀ events, TargetsInserted targets events → Ends told Q (log ++ events) (next ())) :
    Ends told Q log (insertTargets targets >>= next) := by
  induction targets generalizing log with
  | nil =>
      have rest := each [] .nil
      rw [List.append_nil] at rest
      exact rest
  | cons target targets ih =>
      refine ends_run fun rows seen _ => ih fun events rest => ?_
      rw [List.append_assoc]
      exact each _ (.cons rest)

theorem ends_storeSecrets {draft : RunService.Draft}
    (each : ∀ events, SecretsStored draft events → Ends told Q (log ++ events) (next ())) :
    Ends told Q log (storeSecrets draft >>= next) := by
  rw [storeSecrets]
  cases present : draft.secretRow with
  | none =>
      have rest := each [] (.none present)
      rw [List.append_nil] at rest
      exact rest
  | some input => exact ends_perform fun rows seen => each _ (.some present)

theorem ends_refreshLease {workerId : String} {runId : Option Uuid} {now expiresAt : Nat}
    (each : ∀ events, LeaseRefreshed workerId runId now expiresAt events →
      Ends told Q (log ++ events) (next ())) :
    Ends told Q log (refreshLease workerId runId now expiresAt >>= next) := by
  refine ends_run fun rows seen _ => ends_run fun rows' seen' _ => ?_
  rw [List.append_assoc]
  exact each _ .intro

theorem ends_lockHosts {now : Nat} {fresh : Uuid → HostLock} {hosts : List Uuid}
    {next : Nat → OpsProgram α}
    (each : ∀ taken events, HostsLocked now fresh hosts taken events →
      Ends told Q (log ++ events) (next taken)) :
    Ends told Q log (lockHosts now fresh hosts >>= next) := by
  induction hosts generalizing log next with
  | nil =>
      have rest := each 0 [] .nil
      rw [List.append_nil] at rest
      exact rest
  | cons host hosts ih =>
      rw [lockHosts, run_bind]
      refine ends_run fun rows seen _ => ?_
      simp only [bind_assoc]
      refine ih fun taken events rest => ?_
      rw [List.append_assoc]
      exact each _ _ (.cons rest)

theorem ends_changeAccounts {statements : List AccountStatement}
    {Q : OpsAnswer → List OpsEvent → Prop}
    (each : ∀ events, AccountsChanged statements events → Q .written (log ++ events)) :
    Ends told Q log (changeAccounts statements) := by
  induction statements generalizing log with
  | nil =>
      have rest := each [] .nil
      rw [List.append_nil] at rest
      exact ends_done rest
  | cons statement statements ih =>
      refine ends_run fun rows seen _ => ih fun events rest => ?_
      rw [List.append_assoc]
      exact each _ (.cons rest)

/-! ### The operations with ordinary statements -/

theorem issues_perform {statement : OpsStatement} (head : allowed statement)
    (tail : Issues allowed (next ())) : Issues allowed (perform statement >>= next) :=
  ⟨head, fun _ => tail⟩

theorem issues_orFail {β : Type} {failure : OpsFailure}
    {value? : Option β} {next : β → OpsProgram α} (tail : ∀ value, Issues allowed (next value)) :
    Issues allowed (Program.orFail failure value? >>= next) := by
  cases value? with
  | none => trivial
  | some value => exact tail value

theorem issues_raiseIf {failure : OpsFailure} {condition : Bool} (tail : Issues allowed (next ())) :
    Issues allowed (Program.raiseIf failure condition >>= next) := by
  cases condition with
  | false => exact tail
  | true => trivial

theorem issues_appendEvent :
    Issues (fun statement => ordinary statement = true) (appendEvent event) :=
  ⟨rfl, fun _ => issues_orFail fun _ => ⟨rfl, fun _ => trivial⟩⟩

/-- An event is appended, and the operation answers. -/
theorem issues_appendEvent_answer {answer : OpsAnswer} :
    Issues (fun statement => ordinary statement = true)
      (appendEvent event >>= fun _ => (pure answer : OpsProgram OpsAnswer)) :=
  Program.issues_bind issues_appendEvent fun _ => trivial

theorem issues_ordinary {call : OpsCall} (isPlain : call.ordinary = true) :
    Issues (fun statement => ordinary statement = true) (call.program settings) := by
  cases call with
  | cancel runId eventId =>
      refine fun now => ⟨rfl, fun rows => issues_orFail fun current => issues_raiseIf ⟨rfl, ?_⟩⟩
      refine fun rows' => issues_orFail fun run => ?_
      by_cases inQueue : run.status = .canceled
      · simp only [inQueue, if_true]
        exact issues_perform rfl issues_appendEvent_answer
      · simp only [inQueue, if_false]
        exact issues_appendEvent_answer
  | consumeSecretInputs runId names =>
      refine ⟨rfl, fun rows => issues_orFail fun record => issues_raiseIf ?_⟩
      exact issues_orFail fun values => issues_raiseIf (issues_orFail fun texts => trivial)
  | heartbeat workerId runId | markRunning runId =>
      exact fun now => ⟨rfl, fun _ => ⟨rfl, fun _ => trivial⟩⟩
  | recoverStale | finishTarget runTargetId result => exact fun now => ⟨rfl, fun _ => trivial⟩
  | recordEvent runId eventId draft =>
      exact fun now => issues_appendEvent_answer
  | finish workerId runId eventId outcome =>
      refine fun now => ⟨rfl, fun _ => ⟨rfl, fun rows => ⟨rfl, fun _ => ⟨rfl, fun _ => ?_⟩⟩⟩⟩
      refine issues_orFail fun run finishedAt => ?_
      exact issues_appendEvent_answer
  | lookUp _ _ _ | persist _ _ | claim _ _ | createShell _ _ _ _ _ | claimShell _ _ _ _
  | heartbeatShell _ _ _ | getShell _ | requestClose _ _ | finishShell _ _ | recoverShells
  | changeAccounts _ => cases isPlain

theorem ends_ordinary {call : OpsCall} (isPlain : call.ordinary = true) :
    Ends told (Outcome settings call) [] (call.program settings) := by
  have before : ∀ s rows seen, Event.ran s rows seen ∈ ([] : List OpsEvent) →
      ordinary s = true := fun _ _ _ member => absurd member List.not_mem_nil
  refine (Issues.everywhere (issues_ordinary isPlain) before).mono ?_
  exact fun log program holds answer _ => .plain isPlain holds.1

/-! ### Every operation -/

theorem ends_lookUp {requestedBy : Uuid} {idempotencyKey fingerprint : String} :
    Ends told (Outcome settings (.lookUp requestedBy idempotencyKey fingerprint)) []
      (Coordination.lookUp requestedBy idempotencyKey fingerprint) := by
  rw [Coordination.lookUp, execute_bind]
  refine ends_run fun rows seen _ => ?_
  cases isThere : run? rows with
  | none =>
      refine ends_done ?_
      rw [← isThere]
      exact .replayed (by simp [isThere])
  | some existing =>
      refine ends_raiseIf fun same => ends_done ?_
      rw [← isThere]
      refine .replayed fun run isRun => ?_
      obtain rfl := Option.some.inj (isThere.symm.trans isRun)
      simpa using same

theorem ends_persist {draft : RunService.Draft} {unconfirmed : List Uuid} :
    Ends told (Outcome settings (.persist draft unconfirmed)) []
      (Coordination.persist draft unconfirmed) := by
  rw [Coordination.persist, createOrGet, Program.bind_assoc, execute_bind]
  refine ends_run fun rows seen _ => ?_
  cases isNew : run? rows with
  | some run =>
      simp only [Program.bind_assoc]
      refine ends_insertTargets fun inserts inserted => ?_
      simp only [Program.pure_bind', if_true]
      refine ends_raiseIf fun same => ends_raiseIf fun confirmed => ?_
      refine ends_storeSecrets fun secrets stored => ends_appendEvent fun queued appended => ?_
      refine ends_done (.created isNew (by simpa using same) ?_ inserted stored appended)
      simpa using confirmed
  | none =>
      simp only [execute_bind, run_bind]
      refine ends_run fun rows' seen' _ => ?_
      simp only [Program.bind_assoc]
      refine ends_orFail fun run isThere => ends_raiseIf fun same => ends_done ?_
      exact .found isNew isThere (by simpa using same)

theorem ends_claim {workerId : String} {skipped : List Uuid} :
    Ends told (Outcome settings (.claim workerId skipped)) []
      (Coordination.claim settings.worker workerId skipped) := by
  refine ends_clock fun now => ends_refreshLease fun lease refreshed => ?_
  rw [claimNext, Program.bind_assoc, execute_bind]
  refine ends_run fun rows seen _ => ?_
  cases isChosen : run? rows with
  | none => exact ends_done (.idle isChosen refreshed)
  | some chosen =>
      simp only [execute_bind, run_bind]
      refine ends_run fun hosts seen' _ => ?_
      simp only [Program.bind_assoc]
      refine ends_lockHosts fun taken locks locked => ?_
      simp only [run_bind]
      refine ends_run fun expected seen'' _ => ?_
      simp only [Program.bind_assoc]
      refine ends_raiseIf fun all => ?_
      refine ends_refreshLease fun lease' refreshed' => ends_done ?_
      have all : taken = expected.length := by simpa using all
      have outcome : Outcome settings (.claim workerId skipped) (.claimed (some chosen))
          ([.clock now] ++ lease ++
            [.ran (.claimNext workerId now skipped) rows seen,
              .ran (.targets chosen.runId) hosts seen'] ++ locks ++
            [.ran (.targets chosen.runId) expected seen''] ++ lease') :=
        .claimed isChosen refreshed locked all refreshed'
      simpa using outcome

theorem ends_createShell {hostId : Uuid}
    {instanceId : String} {reading : WebShellService.HostReading} :
    Ends told
      (Outcome settings (.createShell webShellSessionId hostId principal instanceId reading)) []
      (Coordination.createShell settings.webShellMaxSessions webShellSessionId hostId principal
        instanceId reading) := by
  refine ends_raiseIf fun permitted => ends_clock fun now => ends_perform fun rows s => ?_
  refine ends_perform fun gone s' => ends_run fun live s'' _ => ends_raiseIf fun capacity => ?_
  refine ends_orFail fun enabled isEnabled => ends_raiseIf fun isTrue => ?_
  refine ends_orFail fun target isTarget => ends_raiseIf fun hasKeys => ?_
  refine ends_run fun added t _ => ends_orFail fun session isAdded => ?_
  refine ends_run fun taken t' _ => ends_raiseIf fun acquired => ends_done ?_
  obtain rfl : enabled = true := by simpa using isTrue
  exact .opened (by simpa using permitted) (by simpa using capacity) isEnabled isTarget
    (by simpa using hasKeys) isAdded (by simpa using acquired)

theorem ends_claimShell {ownerId : String} {launchable : Bool} :
    Ends told (Outcome settings (.claimShell webShellSessionId principal ownerId launchable)) []
      (Coordination.claimShell webShellSessionId principal ownerId launchable) := by
  refine ends_raiseIf fun permitted => ends_clock fun now => ends_run fun rows s _ => ?_
  refine ends_orFail fun current isThere => ends_raiseIf fun mine => ?_
  rw [activateShell, Program.bind_assoc, execute_bind]
  refine ends_run fun rows' s' _ => ?_
  cases isActive : shell? rows' with
  | none => exact ends_fail _
  | some active =>
      simp only [execute_bind, run_bind]
      refine ends_run fun handed s'' _ => ?_
      simp only [Program.bind_assoc]
      refine ends_raiseIf fun one => ?_
      simp only [Program.pure_bind']
      refine ends_raiseIf fun isLaunchable => ends_done ?_
      obtain rfl : launchable = true := by simpa using isLaunchable
      obtain ⟨actor, session, pending, unexpired⟩ : current.actorUserId = principal.userId ∧
          current.authSessionId = principal.sessionId ∧ current.state = .pending ∧
            now < current.ticketExpiresAt := by
        simpa using mine
      exact .launched (by simpa using permitted) isThere actor session pending unexpired isActive
        (by simpa using one)

theorem ends_requestClose :
    Ends told (Outcome settings (.requestClose webShellSessionId principal)) []
      (Coordination.requestClose webShellSessionId principal) := by
  rw [Coordination.requestClose, execute_bind]
  refine ends_run fun rows s _ => ?_
  cases own : (shell? rows).filter fun current => current.actorUserId = principal.userId with
  | none => exact ends_done .closeIgnored
  | some current =>
      obtain ⟨isThere, isActor⟩ := Option.filter_eq_some_iff.mp own
      have actor := of_decide_eq_true isActor
      cases state : current.state with
      | pending =>
          simp only [state]
          exact ends_perform fun rows' s' => ends_done (.withdrawn isThere actor state)
      | active =>
          simp only [state, now_bind]
          exact ends_clock fun now => ends_perform fun rows' s' =>
            ends_done (.closing isThere actor state)
      | closeRequested =>
          simp only [state]
          exact ends_done .closeIgnored

/-- **Every call** that comes to an answer has one of these logs. -/
theorem ends_program (call : OpsCall) :
    Ends told (Outcome settings call) [] (call.program settings) := by
  cases call with
  | lookUp requestedBy idempotencyKey fingerprint => exact ends_lookUp
  | persist draft unconfirmed => exact ends_persist
  | claim workerId skipped => exact ends_claim
  | createShell webShellSessionId hostId principal instanceId reading => exact ends_createShell
  | claimShell webShellSessionId principal ownerId launchable => exact ends_claimShell
  | heartbeatShell webShellSessionId ownerId lastActivityAt =>
      exact ends_clock fun now => ends_run fun rows seen _ => ends_done .beaten
  | getShell webShellSessionId => exact ends_run fun rows seen _ => ends_done .shown
  | requestClose webShellSessionId principal => exact ends_requestClose
  | finishShell webShellSessionId ownerId => exact ends_perform fun rows seen => ends_done .ended
  | recoverShells =>
      exact ends_perform fun rows s => ends_clock fun now => ends_run fun gone s' _ =>
        ends_done .cleaned
  | changeAccounts statements => exact ends_changeAccounts fun events run => .changed run
  | _ => exact ends_ordinary rfl

end Outcomes

end OpsComposer.Coordination
