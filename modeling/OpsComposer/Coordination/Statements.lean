import OpsComposer.Foundations.CommitHistory
import OpsComposer.Services.OpsPrograms

/-!
# What the statements on runs and web shells do

One constructor of `Touches` for each thing that a statement can do to a row, with the
condition under which it does it.  The writes of a statement are told by the rows that it
returns (`tellable`), so that the log of a transaction has all that it has written.
-/

set_option autoImplicit false

namespace OpsComposer.Coordination

open Domain Foundations Repositories Services
open RowStore RunRepository WebShellRepository

/-! ## One row -/

/-- What a statement can make of the row under a key. -/
inductive Touches (snapshot : OpsStore) :
    OpsStatement → Option OpsRow → Option OpsRow → Prop where
  | runInserted {run : Run} : Touches snapshot (.insertRun run) none (some (.run run))
  | targetInserted {target : RunTarget} :
      Touches snapshot (.insertTarget target) none (some (.target target))
  | canceled {runId : Uuid} {now : Nat} {run : Run} (isRun : run.runId = runId)
      (cancelable : run.status.cancelable = true) :
      Touches snapshot (.requestCancel runId now) (some (.run run))
        (some (.run (canceledBy now run)))
  | targetCanceled {runId : Uuid} {now : Nat} {target : RunTarget} (ofRun : target.runId = runId)
      (pending : target.status = .pending) :
      Touches snapshot (.cancelTargets runId now) (some (.target target))
        (some (.target { target with status := .canceled, finishedAt := some now }))
  | leased {lease : WorkerLease} {before : Option OpsRow}
      (same : ∀ row, before = some row → ∃ old, row = .lease old) :
      Touches snapshot (.upsertLease lease) before (some (.lease lease))
  | refreshed {workerId : String} {expiresAt : Nat} {lock : HostLock}
      (isOwn : RefreshedBy workerId lock) :
      Touches snapshot (.refreshLocks workerId expiresAt) (some (.lock lock))
        (some (.lock { lock with expiresAt := expiresAt }))
  | claimed {workerId : String} {now : Nat} {skipped : List Uuid} {run chosen : Run}
      (queued : run.status = .queued)
      (isChosen : candidate snapshot.toStore now skipped = some chosen)
      (isRun : chosen.runId = run.runId) :
      Touches snapshot (.claimNext workerId now skipped) (some (.run run))
        (some (.run (claimedBy workerId now run)))
  | locked {lock : HostLock} {now : Nat} {before : Option OpsRow}
      (free : ∀ row, before = some row →
        ∃ old, row = .lock old ∧ old.hostId = lock.hostId ∧ old.expiresAt ≤ now) :
      Touches snapshot (.lockHost lock now) before (some (.lock lock))
  | recovered {now : Nat} {current : OpsStore} {row : OpsRow} {after : Option OpsRow}
      (isChange : OpsStatement.recovered snapshot now current row = some after) :
      Touches snapshot (.recoverStale now) (some row) after
  | marked {runId : Uuid} {now : Nat} {run : Run} (isRun : run.runId = runId)
      (preparing : run.status = .preparing) :
      Touches snapshot (.markRunning runId now) (some (.run run))
        (some (.run { run with status := .running, updatedAt := now }))
  | targetMarked {runId : Uuid} {now : Nat} {target : RunTarget} (ofRun : target.runId = runId)
      (pending : target.status = .pending) :
      Touches snapshot (.markTargetsRunning runId now) (some (.target target))
        (some (.target { target with status := .running, startedAt := some now }))
  | targetEnded {runId : Uuid} {status : RunStatus} {now : Nat} {target : RunTarget}
      (ofRun : target.runId = runId) (open? : target.status.open? = true) :
      Touches snapshot (.finishTargets runId status now) (some (.target target))
        (some (.target
          { target with
            status := fallbackTargetStatus status
            finishedAt := some now }))
  | finished {runId : Uuid} {workerId : String} {outcome : Outcome} {now : Nat} {run : Run}
      (isRun : run.runId = runId) (isOwn : OwnedBy workerId run) :
      Touches snapshot (.finishRun runId workerId outcome now) (some (.run run))
        (some (.run (finishedWith outcome now run)))
  | released {runId : Uuid} {lock : HostLock} (ofRun : lock.runId? = some runId) :
      Touches snapshot (.releaseLocks runId) (some (.lock lock)) none
  | leaseCleared {workerId : String} {runId : Uuid} {lease : WorkerLease}
      (isOwn : lease.workerId = workerId) (ofRun : lease.runId = some runId) :
      Touches snapshot (.clearLease workerId runId) (some (.lease lease))
        (some (.lease { lease with runId := none }))
  | targetFinished {runTargetId : Uuid} {result : TargetResult} {now : Nat} {target : RunTarget}
      (isTarget : target.runTargetId = runTargetId) :
      Touches snapshot (.finishTarget runTargetId result now) (some (.target target))
        (some (.target (withResult result now target)))
  | numbered {runId : Uuid} {run : Run} (isRun : run.runId = runId) :
      Touches snapshot (.nextSequence runId) (some (.run run))
        (some (.run { run with nextEventSequence := run.nextEventSequence + 1 }))
  | eventInserted {event : RunEvent} :
      Touches snapshot (.insertEvent event) none (some (.event event))
  | secretStored {input : RunSecretInput} :
      Touches snapshot (.addSecretInputs input) none (some (.secretInput input))
  | secretConsumed {runId : Uuid} {input : RunSecretInput} (ofRun : input.runId = runId) :
      Touches snapshot (.consumeSecretInputs runId) (some (.secretInput input)) none
  | admitted {before : Option OpsRow} (same : ∀ row, before = some row → row = .admission) :
      Touches snapshot .acquireAdmissionLock before (some .admission)
  | cleaned {now : Nat} {current : OpsStore} {row : OpsRow} {after : Option OpsRow}
      (isChange : OpsStatement.dropped snapshot (fun session => Expired now session) current row =
        some after) :
      Touches snapshot (.cleanupExpired now) (some row) after
  | shellAdded {session : WebShellSession} :
      Touches snapshot (.addShell session) none (some (.shell session))
  | shellHeld {webShellSessionId : Uuid} {session : WebShellSession}
      (isShell : session.webShellSessionId = webShellSessionId) :
      Touches snapshot (.getShell webShellSessionId true) (some (.shell session))
        (some (.shell session))
  | activated {webShellSessionId authSessionId : Uuid} {ownerId : String} {now expiresAt : Nat}
      {session : WebShellSession}
      (activatable : Activatable snapshot.toStore webShellSessionId authSessionId now session) :
      Touches snapshot (.activate webShellSessionId authSessionId ownerId now expiresAt)
        (some (.shell session)) (some (.shell (activated ownerId now expiresAt session)))
  | handed {webShellSessionId : Uuid} {ownerId : String} {now expiresAt : Nat} {lock : HostLock}
      (unexpired : UnexpiredLock webShellSessionId now lock) :
      Touches snapshot (.handLock webShellSessionId ownerId now expiresAt) (some (.lock lock))
        (some (.lock { lock with ownerId := ownerId, expiresAt := expiresAt }))
  | beaten {webShellSessionId : Uuid} {ownerId : String} {now expiresAt lastActivityAt : Nat}
      {current : OpsStore} {row : OpsRow} {after : Option OpsRow}
      (isChange : OpsStatement.refreshed snapshot webShellSessionId ownerId now expiresAt
        lastActivityAt current row = some after) :
      Touches snapshot
        (.heartbeatShell webShellSessionId ownerId now expiresAt lastActivityAt) (some row) after
  | closing {webShellSessionId actorUserId : Uuid} {now : Nat} {session : WebShellSession}
      (closable : Closable webShellSessionId actorUserId session) :
      Touches snapshot (.markCloseRequested webShellSessionId actorUserId now)
        (some (.shell session))
        (some (.shell { session with state := .closeRequested, closeRequestedAt := some now }))
  | shellDeleted {webShellSessionId : Uuid} {ownerId : Option String} {current : OpsStore}
      {row : OpsRow} {after : Option OpsRow}
      (isChange : OpsStatement.dropped snapshot
        (fun session => Deletable webShellSessionId ownerId session) current row = some after) :
      Touches snapshot (.deleteShell webShellSessionId ownerId) (some row) after
  | loggedIn {login : LoginSession} {before : Option OpsRow}
      (same : ∀ row, before = some row → ∃ old, row = .login old) :
      Touches snapshot (.putLogin login) before (some (.login login))
  | loggedOut {sessionId : Uuid} {login : LoginSession} (isLogin : login.sessionId = sessionId) :
      Touches snapshot (.deleteLogin sessionId) (some (.login login)) none
  | userChanged {user : LoginUser} {before : Option OpsRow}
      (same : ∀ row, before = some row → ∃ old, row = .user old) :
      Touches snapshot (.putUser user) before (some (.user user))

section Changes

variable {τ : Type} {kind : RowKind OpsRow τ} {before after : Option OpsRow}

theorem opsSet_changes {condition : τ → Bool} {f : τ → τ}
    (keeps : ∀ t, (kind.wrap (f t)).key = (kind.wrap t).key)
    (change : Command.Changes (opsSet kind condition f keeps) before after) :
    ∃ old, condition old = true ∧ before = some (kind.wrap old) ∧
      after = some (kind.wrap (f old)) := by
  cases change with
  | update holds =>
      obtain ⟨old, rfl, meets⟩ := kind.meets_iff.mp holds
      exact ⟨old, meets, rfl, congrArg some (kind.map_wrap f old)⟩

theorem opsDelete_changes {condition : τ → Bool}
    (change : Command.Changes (opsDelete kind condition) before after) :
    ∃ old, condition old = true ∧ before = some (kind.wrap old) ∧ after = none := by
  cases change with
  | delete holds =>
      obtain ⟨old, rfl, meets⟩ := kind.meets_iff.mp holds
      exact ⟨old, meets, rfl, rfl⟩

theorem insert_changes {row : OpsRow} {doNothing : Bool}
    (change : Command.Changes (.insert row doNothing : OpsCommand) before after) :
    before = none ∧ after = some row := by
  cases change with
  | insert => exact ⟨rfl, rfl⟩

theorem upsert_changes {row : OpsRow} {f : OpsRow → OpsRow} {keeps : ∀ r, (f r).key = r.key}
    (change : Command.Changes (.upsert row f keeps : OpsCommand) before after) :
    (before = none ∧ after = some row) ∨
      ∃ old, old.key = row.key ∧ before = some old ∧ after = some (f old) := by
  cases change with
  | added => exact .inl ⟨rfl, rfl⟩
  | replaced same => exact .inr ⟨_, same, rfl, rfl⟩

theorem rewrite_changes {keys : List OpsKey} {change : OpsStore → OpsRow → Option (Option OpsRow)}
    {keeps : ∀ s r r', change s r = some (some r') → r'.key = r.key}
    (changes : Command.Changes (.rewrite keys change keeps : OpsCommand) before after) :
    ∃ current row, before = some row ∧ change current row = some after := by
  cases changes with
  | rewritten _ _ isChange => exact ⟨_, _, rfl, isChange⟩

end Changes

section Keys

variable {row : OpsRow} {id : Uuid}

theorem lock_of_key (key : row.key = .lock id) : ∃ lock, row = .lock lock ∧ lock.hostId = id := by
  cases row <;> cases key
  exact ⟨_, rfl, rfl⟩

theorem lease_of_key {workerId : String} (key : row.key = .lease workerId) :
    ∃ lease, row = .lease lease ∧ lease.workerId = workerId := by
  cases row <;> cases key
  exact ⟨_, rfl, rfl⟩

theorem login_of_key (key : row.key = .login id) :
    ∃ login, row = .login login ∧ login.sessionId = id := by
  cases row <;> cases key
  exact ⟨_, rfl, rfl⟩

theorem user_of_key (key : row.key = .user id) : ∃ user, row = .user user ∧ user.userId = id := by
  cases row <;> cases key
  exact ⟨_, rfl, rfl⟩

theorem admission_of_key (key : row.key = .admission) : row = .admission := by
  cases row <;> cases key
  rfl

end Keys

/-- **Inversion.** -/
theorem touches_of_changes {statement : OpsStatement} {snapshot : OpsStore}
    {before after : Option OpsRow}
    (change : Command.Changes (statement.meaning snapshot) before after) :
    Touches snapshot statement before after := by
  cases statement with
  | getByIdempotencyKey requestedBy idempotencyKey | getRun runId | targets runId
  | countLive now => cases change
  | insertRun run =>
      obtain ⟨rfl, rfl⟩ := insert_changes change
      exact .runInserted
  | insertTarget target =>
      obtain ⟨rfl, rfl⟩ := insert_changes change
      exact .targetInserted
  | requestCancel runId now =>
      obtain ⟨run, meets, rfl, rfl⟩ := opsSet_changes (by intro; rfl) change
      obtain ⟨isRun, cancelable⟩ := of_decide_eq_true meets
      exact .canceled isRun cancelable
  | cancelTargets runId now =>
      obtain ⟨target, meets, rfl, rfl⟩ := opsSet_changes (by intro; rfl) change
      obtain ⟨ofRun, pending⟩ := of_decide_eq_true meets
      exact .targetCanceled ofRun pending
  | upsertLease lease =>
      rcases upsert_changes change with ⟨rfl, rfl⟩ | ⟨old, same, rfl, rfl⟩
      · exact .leased fun _ taken => absurd taken (Option.some_ne_none _).symm
      · obtain ⟨old, rfl, key⟩ := lease_of_key same
        have after : OpsRow.leases.map (fun old =>
            { old with
              runId := lease.runId
              heartbeatAt := lease.heartbeatAt
              expiresAt := lease.expiresAt }) (.lease old) = .lease lease := by
          refine (OpsRow.leases.map_wrap _ old).trans (congrArg OpsRow.lease ?_)
          rw [key]
        rw [after]
        exact .leased fun row isOld => ⟨old, (Option.some.inj isOld).symm⟩
  | refreshLocks workerId expiresAt =>
      obtain ⟨lock, meets, rfl, rfl⟩ := opsSet_changes (by intro; rfl) change
      exact .refreshed (of_decide_eq_true meets)
  | claimNext workerId now skipped =>
      obtain ⟨run, meets, rfl, rfl⟩ := opsSet_changes (by intro; rfl) change
      obtain ⟨queued, isChosen⟩ := of_decide_eq_true meets
      obtain ⟨chosen, isCandidate, same⟩ := (Option.any_eq_true _ _).mp isChosen
      exact .claimed queued isCandidate (of_decide_eq_true same)
  | lockHost lock now =>
      cases change with
      | addedIf => exact .locked fun _ taken => absurd taken (Option.some_ne_none _).symm
      | replacedIf same holds =>
          obtain ⟨old, rfl, expired⟩ := OpsRow.locks.meets_iff.mp holds
          have key : old.hostId = lock.hostId := OpsKey.lock.inj same
          have after : OpsRow.locks.map (fun old => { lock with hostId := old.hostId })
              (.lock old) = .lock lock := by
            refine (OpsRow.locks.map_wrap _ old).trans (congrArg OpsRow.lock ?_)
            rw [key]
          have isOld : OpsRow.locks.wrap old = .lock old := rfl
          rw [isOld, after]
          refine .locked fun row shown => ⟨old, (Option.some.inj shown).symm, key, ?_⟩
          exact of_decide_eq_true expired
  | recoverStale now =>
      obtain ⟨current, row, rfl, isChange⟩ := rewrite_changes change
      exact .recovered isChange
  | markRunning runId now =>
      obtain ⟨run, meets, rfl, rfl⟩ := opsSet_changes (by intro; rfl) change
      obtain ⟨isRun, preparing⟩ := of_decide_eq_true meets
      exact .marked isRun preparing
  | markTargetsRunning runId now =>
      obtain ⟨target, meets, rfl, rfl⟩ := opsSet_changes (by intro; rfl) change
      obtain ⟨ofRun, pending⟩ := of_decide_eq_true meets
      exact .targetMarked ofRun pending
  | finishTargets runId status now =>
      obtain ⟨target, meets, rfl, rfl⟩ := opsSet_changes (by intro; rfl) change
      obtain ⟨ofRun, isOpen⟩ := of_decide_eq_true meets
      exact .targetEnded ofRun isOpen
  | finishRun runId workerId outcome now =>
      obtain ⟨run, meets, rfl, rfl⟩ := opsSet_changes (by intro; rfl) change
      obtain ⟨isRun, isOwn⟩ := of_decide_eq_true meets
      exact .finished isRun isOwn
  | releaseLocks runId =>
      obtain ⟨lock, meets, rfl, rfl⟩ := opsDelete_changes change
      exact .released (of_decide_eq_true meets)
  | clearLease workerId runId =>
      obtain ⟨lease, meets, rfl, rfl⟩ := opsSet_changes (by intro; rfl) change
      obtain ⟨isOwn, ofRun⟩ := of_decide_eq_true meets
      exact .leaseCleared isOwn ofRun
  | finishTarget runTargetId result now =>
      obtain ⟨target, meets, rfl, rfl⟩ := opsSet_changes (by intro; rfl) change
      exact .targetFinished (of_decide_eq_true meets)
  | nextSequence runId =>
      obtain ⟨run, meets, rfl, rfl⟩ := opsSet_changes (by intro; rfl) change
      exact .numbered (of_decide_eq_true meets)
  | insertEvent event =>
      obtain ⟨rfl, rfl⟩ := insert_changes change
      exact .eventInserted
  | addSecretInputs input =>
      obtain ⟨rfl, rfl⟩ := insert_changes change
      exact .secretStored
  | consumeSecretInputs runId =>
      obtain ⟨input, meets, rfl, rfl⟩ := opsDelete_changes change
      exact .secretConsumed (of_decide_eq_true meets)
  | acquireAdmissionLock =>
      rcases upsert_changes change with ⟨rfl, rfl⟩ | ⟨old, same, rfl, rfl⟩
      · exact .admitted fun _ taken => absurd taken (Option.some_ne_none _).symm
      · obtain rfl := admission_of_key same
        exact .admitted fun row isOld => (Option.some.inj isOld).symm
  | cleanupExpired now =>
      obtain ⟨current, row, rfl, isChange⟩ := rewrite_changes change
      exact .cleaned isChange
  | addShell session =>
      obtain ⟨rfl, rfl⟩ := insert_changes change
      exact .shellAdded
  | getShell webShellSessionId forUpdate =>
      cases forUpdate with
      | false => cases change
      | true =>
          cases change with
          | update holds =>
              obtain ⟨session, rfl, meets⟩ := OpsRow.shells.meets_iff.mp holds
              exact .shellHeld (of_decide_eq_true meets)
  | activate webShellSessionId authSessionId ownerId now expiresAt =>
      obtain ⟨session, meets, rfl, rfl⟩ := opsSet_changes (by intro; rfl) change
      exact .activated (of_decide_eq_true meets)
  | handLock webShellSessionId ownerId now expiresAt =>
      obtain ⟨lock, meets, rfl, rfl⟩ := opsSet_changes (by intro; rfl) change
      exact .handed (of_decide_eq_true meets)
  | heartbeatShell webShellSessionId ownerId now expiresAt lastActivityAt =>
      obtain ⟨current, row, rfl, isChange⟩ := rewrite_changes change
      exact .beaten isChange
  | markCloseRequested webShellSessionId actorUserId now =>
      obtain ⟨session, meets, rfl, rfl⟩ := opsSet_changes (by intro; rfl) change
      exact .closing (of_decide_eq_true meets)
  | deleteShell webShellSessionId ownerId =>
      obtain ⟨current, row, rfl, isChange⟩ := rewrite_changes change
      exact .shellDeleted isChange
  | putLogin login =>
      rcases upsert_changes change with ⟨rfl, rfl⟩ | ⟨old, same, rfl, rfl⟩
      · exact .loggedIn fun _ taken => absurd taken (Option.some_ne_none _).symm
      · obtain ⟨old, rfl, key⟩ := login_of_key same
        have after : OpsRow.logins.map (fun old => { login with sessionId := old.sessionId })
            (.login old) = .login login := by
          refine (OpsRow.logins.map_wrap _ old).trans (congrArg OpsRow.login ?_)
          rw [key]
        rw [after]
        exact .loggedIn fun row isOld => ⟨old, (Option.some.inj isOld).symm⟩
  | deleteLogin sessionId =>
      obtain ⟨login, meets, rfl, rfl⟩ := opsDelete_changes change
      exact .loggedOut (of_decide_eq_true meets)
  | putUser user =>
      rcases upsert_changes change with ⟨rfl, rfl⟩ | ⟨old, same, rfl, rfl⟩
      · exact .userChanged fun _ taken => absurd taken (Option.some_ne_none _).symm
      · obtain ⟨old, rfl, key⟩ := user_of_key same
        have after : OpsRow.users.map (fun old => { user with userId := old.userId })
            (.user old) = .user user := by
          refine (OpsRow.users.map_wrap _ old).trans (congrArg OpsRow.user ?_)
          rw [key]
        rw [after]
        exact .userChanged fun row isOld => ⟨old, (Option.some.inj isOld).symm⟩

/-! ## All rows of a statement -/

section Perform

variable {snapshot current : OpsStore} {shown : List OpsRow} {writes : List (Write OpsKey OpsRow)}
  {clash : OpsRow → OpsRow → Bool}

/-- The writes of a rewriting are told by the rows that it returns, when each of them is. -/
theorem effects_of_rewrite {keys : List OpsKey}
    {change : OpsStore → OpsRow → Option (Option OpsRow)}
    {keeps : ∀ s r r', change s r = some (some r') → r'.key = r.key}
    {tell : OpsRow → Write OpsKey OpsRow}
    (each : ∀ row after, change current row = some after →
      Command.writeOf OpsStore (row, after) = tell (after.getD row))
    (done : (Command.rewrite keys change keeps : OpsCommand).perform clash snapshot current =
      some (shown, writes)) : writes = shown.map tell := by
  obtain ⟨rfl, rfl⟩ := Command.perform_rewrite done
  rw [List.map_map]
  refine List.map_congr_left fun entry member => ?_
  exact each entry.1 entry.2 (Command.mem_changed.mp member).2.2

theorem writeOf_dropped {gone : WebShellSession → Bool} (row : OpsRow) (after : Option OpsRow)
    (change : OpsStatement.dropped snapshot gone current row = some after) :
    Command.writeOf OpsStore (row, after) = .erase (after.getD row).key := by
  cases row <;> simp only [OpsStatement.dropped, Option.ite_none_right_eq_some,
    Option.some.injEq, reduceCtorEq] at change
  · obtain ⟨-, rfl⟩ := change
    rfl
  · obtain ⟨-, rfl⟩ := change
    rfl

/-- **The returned rows of a statement tell its writes.** -/
theorem tellable {settings : OpsSettings} :
    (opsService settings).Tellable OpsStatement.effects := by
  intro statement snapshot current shown writes done
  have inserted : ∀ {row : OpsRow} {doNothing : Bool},
      (Command.insert row doNothing : OpsCommand).perform OpsRow.clash snapshot current =
        some (shown, writes) → writes = shown.map .put := by
    intro row doNothing done
    obtain ⟨-, ⟨-, -, rfl, rfl⟩ | ⟨-, rfl, rfl⟩⟩ := Command.perform_insert done <;> rfl
  have upserted : ∀ {row : OpsRow} {f : OpsRow → OpsRow} {keeps : ∀ r, (f r).key = r.key},
      (Command.upsert row f keeps : OpsCommand).perform OpsRow.clash snapshot current =
        some (shown, writes) → writes = shown.map .put := by
    intro row f keeps done
    rcases Command.perform_upsert done with ⟨-, rfl, rfl⟩ | ⟨old, -, rfl, rfl⟩ <;> rfl
  cases statement with
  | getByIdempotencyKey _ _ | getRun _ | targets _ | countLive _ =>
      exact (Prod.mk.inj (Option.some.inj done)).2.symm
  | getShell _ forUpdate =>
      cases forUpdate with
      | false => exact (Prod.mk.inj (Option.some.inj done)).2.symm
      | true => exact (Command.perform_set done).2
  | insertRun _ | insertTarget _ | insertEvent _ | addSecretInputs _ | addShell _ =>
      exact inserted done
  | upsertLease _ | acquireAdmissionLock | putLogin _ | putUser _ => exact upserted done
  | lockHost lock now =>
      rcases Command.perform_upsertIf done with
        ⟨-, rfl, rfl⟩ | ⟨old, -, ⟨-, rfl, rfl⟩ | ⟨-, rfl, rfl⟩⟩ <;> rfl
  | recoverStale now =>
      refine effects_of_rewrite (fun row after change => ?_) done
      cases row <;> simp only [OpsStatement.recovered, Option.ite_none_right_eq_some,
        Option.some.injEq, reduceCtorEq] at change
      all_goals
        obtain ⟨-, rfl⟩ := change
        rfl
  | cleanupExpired now | deleteShell _ _ => exact effects_of_rewrite writeOf_dropped done
  | heartbeatShell _ _ _ _ _ =>
      refine effects_of_rewrite (fun row after change => ?_) done
      cases row <;> simp only [OpsStatement.refreshed, Option.ite_none_right_eq_some,
        Option.some.injEq, reduceCtorEq] at change
      all_goals
        obtain ⟨-, rfl⟩ := change
        rfl
  | releaseLocks _ | consumeSecretInputs _ | deleteLogin _ => exact (Command.perform_delete done).2
  | requestCancel _ _ | cancelTargets _ _ | refreshLocks _ _ | claimNext _ _ _ | markRunning _ _
  | markTargetsRunning _ _ | finishTargets _ _ _ | finishRun _ _ _ _ | clearLease _ _
  | finishTarget _ _ _ | nextSequence _ | activate _ _ _ _ _ | handLock _ _ _ _
  | markCloseRequested _ _ _ => exact (Command.perform_set done).2

end Perform

end OpsComposer.Coordination
