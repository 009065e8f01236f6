import OpsComposer.Coordination.Outcomes

/-!
# Which call a statement comes from

The statements that create, claim or open something occur in the logs of one call each, with
what the call has been given and with the clock that its transaction has read (`IssuedBy`).
-/

set_option autoImplicit false

namespace OpsComposer.Coordination

open Domain Foundations Repositories Services

/-! ## Parts of logs -/

section Parts

variable {log : List OpsEvent} {statement : OpsStatement} {rows : List OpsRow} {seen : Nat}

theorem statement_targetsInserted {targets : List RunTarget}
    (inserted : TargetsInserted targets log) (ran : .ran statement rows seen ∈ log) :
    ∃ target ∈ targets, statement = .insertTarget target := by
  induction inserted with
  | nil => cases ran
  | cons rest ih =>
      rcases List.mem_cons.mp ran with same | later
      · obtain ⟨rfl, -, -⟩ := Event.ran.inj same
        exact ⟨_, List.mem_cons_self, rfl⟩
      · obtain ⟨target, member, isInsert⟩ := ih later
        exact ⟨target, List.mem_cons_of_mem _ member, isInsert⟩

theorem statement_secretsStored {draft : RunService.Draft} (stored : SecretsStored draft log)
    (ran : .ran statement rows seen ∈ log) :
    ∃ input, draft.secretRow = some input ∧ statement = .addSecretInputs input := by
  cases stored with
  | none absent => cases ran
  | some present =>
      obtain ⟨rfl, -, -⟩ := Event.ran.inj (List.mem_singleton.mp ran)
      exact ⟨_, present, rfl⟩

theorem statement_eventAppended {event : RunEvent} (appended : EventAppended event log)
    (ran : .ran statement rows seen ∈ log) :
    statement = .nextSequence event.runId ∨
      ∃ sequence, statement = .insertEvent { event with sequence := sequence } := by
  cases appended with
  | intro isRun =>
      rcases List.mem_cons.mp ran with same | later
      · exact .inl (Event.ran.inj same).1
      · exact .inr ⟨_, (Event.ran.inj (List.mem_singleton.mp later)).1⟩

theorem statement_leaseRefreshed {workerId : String} {runId : Option Uuid} {now expiresAt : Nat}
    (refreshed : LeaseRefreshed workerId runId now expiresAt log)
    (ran : .ran statement rows seen ∈ log) :
    statement = .upsertLease
        { workerId := workerId, runId := runId, heartbeatAt := now, expiresAt := expiresAt } ∨
      statement = .refreshLocks workerId expiresAt := by
  cases refreshed with
  | intro =>
      rcases List.mem_cons.mp ran with same | later
      · exact .inl (Event.ran.inj same).1
      · exact .inr (Event.ran.inj (List.mem_singleton.mp later)).1

theorem statement_hostsLocked {now taken : Nat} {fresh : Uuid → HostLock} {hosts : List Uuid}
    (locked : HostsLocked now fresh hosts taken log) (ran : .ran statement rows seen ∈ log) :
    ∃ host ∈ hosts, statement = .lockHost (fresh host) now := by
  induction locked with
  | nil => cases ran
  | cons rest ih =>
      rcases List.mem_cons.mp ran with same | later
      · obtain ⟨rfl, -, -⟩ := Event.ran.inj same
        exact ⟨_, List.mem_cons_self, rfl⟩
      · obtain ⟨host, member, isLock⟩ := ih later
        exact ⟨host, List.mem_cons_of_mem _ member, isLock⟩

theorem statement_accountsChanged {statements : List AccountStatement}
    (changed : AccountsChanged statements log) (ran : .ran statement rows seen ∈ log) :
    ∃ account : AccountStatement, statement = account.ops := by
  induction changed with
  | nil => cases ran
  | cons rest ih =>
      rcases List.mem_cons.mp ran with same | later
      · obtain ⟨rfl, -, -⟩ := Event.ran.inj same
        exact ⟨_, rfl⟩
      · exact ih later

end Parts

/-! ## Calls -/

/-- The call that the statement comes from. -/
def IssuedBy (settings : OpsSettings) (call : OpsCall) (log : List OpsEvent) : OpsStatement → Prop
  | .insertRun run => ∃ draft unconfirmed, call = .persist draft unconfirmed ∧
      run = { draft.run with nextEventSequence := 1 }
  | .insertTarget target => ∃ draft unconfirmed, call = .persist draft unconfirmed ∧
      target ∈ draft.targetRows
  | .addSecretInputs input => ∃ draft unconfirmed, call = .persist draft unconfirmed ∧
      draft.secretRow = some input
  | .claimNext workerId now skipped => call = .claim workerId skipped ∧ .clock now ∈ log
  | .lockHost lock now => .clock now ∈ log ∧
      ((∃ workerId skipped runId host, call = .claim workerId skipped ∧
          lock = RunRepository.runLock runId workerId now (settings.worker.leaseUntil now) host) ∨
        ∃ webShellSessionId hostId principal instanceId reading,
          call = .createShell webShellSessionId hostId principal instanceId reading ∧
            lock = WebShellRepository.shellLock hostId webShellSessionId ("pending:" ++ instanceId)
              now (now + seconds WebShellService.ticketSeconds))
  | .addShell session => ∃ webShellSessionId hostId principal instanceId reading target now,
      call = .createShell webShellSessionId hostId principal instanceId reading ∧
        .clock now ∈ log ∧ session = WebShellService.pendingSession webShellSessionId hostId principal
          instanceId target now
  | .activate webShellSessionId authSessionId ownerId now expiresAt =>
      ∃ principal launchable, call = .claimShell webShellSessionId principal ownerId launchable ∧
        authSessionId = principal.sessionId ∧ .clock now ∈ log ∧
          expiresAt = now + seconds WebShellService.leaseSeconds
  | .heartbeatShell webShellSessionId ownerId now expiresAt lastActivityAt =>
      call = .heartbeatShell webShellSessionId ownerId lastActivityAt ∧ .clock now ∈ log ∧
        expiresAt = now + seconds WebShellService.leaseSeconds
  | _ => True

/-- **Every statement** of the log of a call that has come to its answer. -/
theorem issued_of_outcome {settings : OpsSettings} {call : OpsCall} {answer : OpsAnswer}
    {log : List OpsEvent} (outcome : Outcome settings call answer log) {statement : OpsStatement}
    {rows : List OpsRow} {seen : Nat} (ran : .ran statement rows seen ∈ log) :
    IssuedBy settings call log statement := by
  cases outcome with
  | replayed same | shown | closeIgnored | ended =>
      obtain ⟨rfl, -, -⟩ := Event.ran.inj (List.mem_singleton.mp ran)
      trivial
  | created isNew same confirmed inserted stored appended =>
      simp only [List.mem_append, List.mem_singleton] at ran
      rcases ran with ((first | later) | later) | later
      · obtain ⟨rfl, -, -⟩ := Event.ran.inj first
        exact ⟨_, _, rfl, rfl⟩
      · obtain ⟨target, member, rfl⟩ := statement_targetsInserted inserted later
        exact ⟨_, _, rfl, member⟩
      · obtain ⟨input, present, rfl⟩ := statement_secretsStored stored later
        exact ⟨_, _, rfl, present⟩
      · rcases statement_eventAppended appended later with rfl | ⟨sequence, rfl⟩ <;> trivial
  | found notNew isThere same =>
      simp only [List.mem_cons, List.not_mem_nil, or_false] at ran
      rcases ran with first | later
      · obtain ⟨rfl, -, -⟩ := Event.ran.inj first
        exact ⟨_, _, rfl, rfl⟩
      · obtain ⟨rfl, -, -⟩ := Event.ran.inj later
        trivial
  | idle none refreshed =>
      simp only [List.mem_append, List.mem_singleton, reduceCtorEq, false_or] at ran
      rcases ran with lease | last
      · rcases statement_leaseRefreshed refreshed lease with rfl | rfl <;> trivial
      · obtain ⟨rfl, -, -⟩ := Event.ran.inj last
        exact ⟨rfl, by simp⟩
  | claimed isChosen refreshed locked all refreshed' =>
      simp only [List.mem_append, List.mem_cons, List.not_mem_nil, reduceCtorEq, false_or,
        or_false] at ran
      rcases ran with (((lease | first | second) | host) | third) | lease
      · rcases statement_leaseRefreshed refreshed lease with rfl | rfl <;> trivial
      · obtain ⟨rfl, -, -⟩ := Event.ran.inj first
        exact ⟨rfl, by simp⟩
      · obtain ⟨rfl, -, -⟩ := Event.ran.inj second
        trivial
      · obtain ⟨host, -, rfl⟩ := statement_hostsLocked locked host
        exact ⟨by simp, .inl ⟨_, _, _, _, rfl, rfl⟩⟩
      · obtain ⟨rfl, -, -⟩ := Event.ran.inj third
        trivial
      · rcases statement_leaseRefreshed refreshed' lease with rfl | rfl <;> trivial
  | opened permitted capacity enabled isTarget hasKeys isAdded acquired =>
      simp only [List.mem_cons, List.not_mem_nil, reduceCtorEq, false_or, or_false] at ran
      rcases ran with first | first | first | first | first
      · obtain ⟨rfl, -, -⟩ := Event.ran.inj first
        trivial
      · obtain ⟨rfl, -, -⟩ := Event.ran.inj first
        trivial
      · obtain ⟨rfl, -, -⟩ := Event.ran.inj first
        trivial
      · obtain ⟨rfl, -, -⟩ := Event.ran.inj first
        exact ⟨_, _, _, _, _, _, _, rfl, List.mem_cons_self, rfl⟩
      · obtain ⟨rfl, -, -⟩ := Event.ran.inj first
        exact ⟨List.mem_cons_self, .inr ⟨_, _, _, _, _, rfl, rfl⟩⟩
  | launched permitted isThere actor session pending unexpired isActive one =>
      simp only [List.mem_cons, List.not_mem_nil, reduceCtorEq, false_or, or_false] at ran
      rcases ran with first | second | third
      · obtain ⟨rfl, -, -⟩ := Event.ran.inj first
        trivial
      · obtain ⟨rfl, -, -⟩ := Event.ran.inj second
        exact ⟨_, _, rfl, rfl, List.mem_cons_self, rfl⟩
      · obtain ⟨rfl, -, -⟩ := Event.ran.inj third
        trivial
  | beaten =>
      simp only [List.mem_cons, List.not_mem_nil, reduceCtorEq, false_or, or_false] at ran
      obtain ⟨rfl, -, -⟩ := Event.ran.inj ran
      exact ⟨rfl, List.mem_cons_self, rfl⟩
  | withdrawn isThere actor pending =>
      simp only [List.mem_cons, List.not_mem_nil, or_false] at ran
      rcases ran with first | second
      · obtain ⟨rfl, -, -⟩ := Event.ran.inj first
        trivial
      · obtain ⟨rfl, -, -⟩ := Event.ran.inj second
        trivial
  | closing isThere actor active | cleaned =>
      simp only [List.mem_cons, List.not_mem_nil, reduceCtorEq, false_or, or_false] at ran
      rcases ran with first | second
      · obtain ⟨rfl, -, -⟩ := Event.ran.inj first
        trivial
      · obtain ⟨rfl, -, -⟩ := Event.ran.inj second
        trivial
  | changed run =>
      obtain ⟨account, rfl⟩ := statement_accountsChanged run ran
      cases account <;> trivial
  | plain isPlain only =>
      have isOrdinary := only statement rows seen ran
      cases statement <;> trivial

end OpsComposer.Coordination
