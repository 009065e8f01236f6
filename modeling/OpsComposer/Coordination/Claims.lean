import OpsComposer.Coordination.Creation

/-!
# Claims of runs

A worker claims a run in one unit of work: it chooses a queued run, takes the locks of the hosts
of its targets, and counts them.  Whatever commits between its statements, a claim that comes to
its end with a run leaves the run in preparation for the worker and the worker with the lock of
every host that the run has a target on, none of which had an unexpired lock, and a claim without
a run leaves all runs (`claim_all_or_nothing`).  That the hosts are read and counted without locks
does no harm: the targets of a run come with it, and stay.
-/

set_option autoImplicit false

namespace OpsComposer.Coordination

open Domain Foundations Repositories Services
open RowStore
open RunRepository (RefreshedBy runLock claimedBy)

/-! ## Targets -/

/-- The target is for the same host of the same run. -/
structure SameTarget (old new : RunTarget) : Prop where
  runTargetId : new.runTargetId = old.runTargetId
  runId : new.runId = old.runId
  hostId : new.hostId = old.hostId

theorem target_of_key {row : OpsRow} {id : Uuid} (key : row.key = .target id) :
    ∃ target, row = .target target ∧ target.runTargetId = id := by
  cases row <;> cases key
  exact ⟨_, rfl, rfl⟩

section Runs

variable {settings : OpsSettings} {db : OpsDb}

/-- **A target** stays the target of its run on its host. -/
theorem target_later (account : OpsAccount settings db) {n m : Nat} (le : n ≤ m)
    (bound : m ≤ db.history.length) {id : Uuid} {target : RunTarget}
    (found : lookup (committedAt db n) (OpsKey.target id) = some (.target target)) :
    ∃ later, lookup (committedAt db m) (OpsKey.target id) = some (.target later) ∧
      SameTarget target later := by
  refine account.induct (P := fun state => ∃ later,
    lookup state (OpsKey.target id) = some (.target later) ∧ SameTarget target later) le bound
    ⟨target, found, rfl, rfl, rfl⟩ ?_
  rintro i index txn answer - - committed before
  rw [← committed.after]
  refine committed.keeps (P := fun row? => ∃ later, row? = some (.target later) ∧
    SameTarget target later) ?_ before
  rintro statement shown seen - snapshot old? new? isOld isNew change
    ⟨middle, rfl, named, runId, hostId⟩
  obtain ⟨row, rfl⟩ := stays_of_changes (.inr ⟨_, rfl⟩) change
  obtain ⟨new, rfl, key⟩ := target_of_key (isNew row rfl)
  obtain ⟨before, same, runId', hostId'⟩ := (target_of_changes change).1 new rfl
  obtain rfl := OpsRow.target.inj same
  refine ⟨new, rfl, ?_, runId'.trans runId, hostId'.trans hostId⟩
  exact key.trans ((OpsKey.target.inj (isOld _ rfl)).symm.trans named)

/-- **A target of a run** has been there as long as the run. -/
theorem target_since (account : OpsAccount settings db) {n m : Nat} (le : n ≤ m)
    (bound : m ≤ db.history.length) {runId : Uuid} {run : Run}
    (isRun : lookup (committedAt db n) (OpsKey.run runId) = some (.run run)) {id : Uuid}
    {target : RunTarget}
    (found : lookup (committedAt db m) (OpsKey.target id) = some (.target target))
    (ofRun : target.runId = runId) :
    ∃ old, lookup (committedAt db n) (OpsKey.target id) = some (.target old) ∧
      SameTarget old target := by
  induction m, le using Nat.le_induction generalizing target with
  | base => exact ⟨target, found, rfl, rfl, rfl⟩
  | succ m le ih =>
      obtain ⟨index, txn, answer, committed⟩ := account.commit (Nat.lt_of_succ_le bound)
      have before := committed.keeps (P := fun row? => ∀ target, row? = some (.target target) →
        target.runId = runId → ∃ old, lookup (committedAt db m) (OpsKey.target id) =
          some (.target old) ∧ SameTarget old target) ?_ ?_ target found ofRun
      · obtain ⟨middle, isThere, same⟩ := before
        obtain ⟨old, isOld, since⟩ :=
          ih (Nat.le_of_succ_le bound) isThere (same.runId.symm.trans ofRun)
        exact ⟨old, isOld, same.runTargetId.trans since.runTargetId,
          same.runId.trans since.runId, same.hostId.trans since.hostId⟩
      · rintro statement shown seen ran snapshot old? new? isOld isNew change keeps new rfl rfl
        rcases belongs_of_changes change rfl with ⟨-, adds⟩ | ⟨old, rfl, wasOf⟩
        · -- a target that is added is added with its run
          obtain ⟨draft, unconfirmed, run', call, isAnswer, named, -⟩ :=
            creation_of_adding committed.outcome ran rfl adds
          obtain ⟨absent, -⟩ := OpsCommit.stored committed account call isAnswer
          obtain ⟨later, isLater, -⟩ := run_later account le (Nat.le_of_succ_le bound) isRun
          rw [named, isLater] at absent
          cases absent
        · obtain ⟨middle, rfl, runId', hostId⟩ := (target_of_changes change).1 new rfl
          obtain ⟨old, isThere, same⟩ := keeps middle rfl runId'.symm
          have named : new.runTargetId = middle.runTargetId :=
            (OpsKey.target.inj (isNew _ rfl)).trans (OpsKey.target.inj (isOld _ rfl)).symm
          exact ⟨old, isThere, named.trans same.runTargetId, runId'.trans same.runId,
            hostId.trans same.hostId⟩
      · exact fun target isThere _ => ⟨target, isThere, rfl, rfl, rfl⟩

end Runs

/-! ## The statements of a claim -/

/-- The statements of a claim of a run. -/
def ClaimsBy (workerId : String) (runId : Uuid) (now expiresAt : Nat) : OpsStatement → Prop
  | .upsertLease lease => lease.workerId = workerId
  | .refreshLocks owner until_ => owner = workerId ∧ until_ = expiresAt
  | .claimNext owner at_ _ => owner = workerId ∧ at_ = now
  | .targets _ => True
  | .lockHost lock at_ => at_ = now ∧ lock = runLock runId workerId now expiresAt lock.hostId
  | _ => False

/-- What a heartbeat of the worker makes of a lock. -/
inductive LockRenewed (workerId : String) (expiresAt : Nat) :
    Option OpsRow → Option OpsRow → Prop where
  | same {row? : Option OpsRow} : LockRenewed workerId expiresAt row? row?
  | refreshed {lock : HostLock} (isOwn : RefreshedBy workerId lock) :
      LockRenewed workerId expiresAt (some (.lock lock))
        (some (.lock { lock with expiresAt := expiresAt }))

theorem LockRenewed.trans {workerId : String} {expiresAt : Nat} {first second third : Option OpsRow}
    (before : LockRenewed workerId expiresAt first second)
    (after : LockRenewed workerId expiresAt second third) :
    LockRenewed workerId expiresAt first third := by
  cases before with
  | same => exact after
  | refreshed isOwn =>
      cases after with
      | same | refreshed _ => exact .refreshed isOwn

section Changes

variable {workerId : String} {runId : Uuid} {now expiresAt : Nat} {statement : OpsStatement}
  {snapshot : OpsStore} {before after : Option OpsRow}

/-- **What a claim changes** besides the run: the lease of the worker, and locks, which it renews
or takes. -/
theorem claim_changes (claims : ClaimsBy workerId runId now expiresAt statement)
    (change : Command.Changes (statement.meaning snapshot) before after) :
    (∃ lease, after = some (.lease lease) ∧ statement = .upsertLease lease) ∨
      (∃ skipped run, statement = .claimNext workerId now skipped ∧ after = some (.run run)) ∨
      (∃ lock, RefreshedBy workerId lock ∧ before = some (.lock lock) ∧
        after = some (.lock { lock with expiresAt := expiresAt })) ∨
      ∃ host, statement = .lockHost (runLock runId workerId now expiresAt host) now ∧
        after = some (.lock (runLock runId workerId now expiresAt host)) := by
  have touches := touches_of_changes change
  cases touches with
  | leased same => exact .inl ⟨_, rfl, rfl⟩
  | claimed queued isChosen isRun =>
      obtain ⟨rfl, rfl⟩ := claims
      exact .inr (.inl ⟨_, _, rfl, rfl⟩)
  | refreshed isOwn =>
      obtain ⟨rfl, rfl⟩ := claims
      exact .inr (.inr (.inl ⟨_, isOwn, rfl, rfl⟩))
  | @locked lock _ _ free =>
      obtain ⟨rfl, isLock⟩ := claims
      exact .inr (.inr (.inr ⟨lock.hostId, by rw [← isLock], by rw [← isLock]⟩))
  | _ => exact claims.elim

end Changes

/-- The events of a claim of a run. -/
inductive ClaimLog (settings : OpsSettings) (workerId : String) (now : Nat) (run : Run) :
    List OpsEvent → Prop where
  | intro {skipped : List Uuid} {rows hosts expected : List OpsRow} {s s' s'' taken : Nat}
      {lease locks lease' : List OpsEvent} (isChosen : run? rows = some run)
      (refreshed : LeaseRefreshed workerId none now (settings.worker.leaseUntil now) lease)
      (locked : HostsLocked now
        (runLock run.runId workerId now (settings.worker.leaseUntil now)) (hostsOf hosts) taken
        locks)
      (all : taken = expected.length)
      (refreshed' : LeaseRefreshed workerId (some run.runId) now (settings.worker.leaseUntil now)
        lease') :
      ClaimLog settings workerId now run
        (([.clock now] ++ lease) ++ .ran (.claimNext workerId now skipped) rows s ::
          .ran (.targets run.runId) hosts s' ::
            (locks ++ .ran (.targets run.runId) expected s'' :: lease'))

theorem claimLog_of_outcome {settings : OpsSettings} {workerId : String} {skipped : List Uuid}
    {run : Run} {log : List OpsEvent}
    (outcome : Outcome settings (.claim workerId skipped) (.claimed (some run)) log) :
    ∃ now, .clock now ∈ log ∧ ClaimLog settings workerId now run log := by
  cases outcome with
  | plain isPlain only => cases isPlain
  | claimed isChosen refreshed locked all refreshed' =>
      refine ⟨_, List.mem_cons_self, ?_⟩
      simp only [List.append_assoc, List.cons_append, List.nil_append]
      exact .intro isChosen refreshed locked all refreshed'

/-- Every statement of a claim. -/
theorem claimsBy_of_claimLog {settings : OpsSettings} {workerId : String} {now : Nat} {run : Run}
    {log : List OpsEvent} (claimed : ClaimLog settings workerId now run log)
    {statement : OpsStatement} {shown : List OpsRow} {seen : Nat}
    (ran : .ran statement shown seen ∈ log) :
    ClaimsBy workerId run.runId now (settings.worker.leaseUntil now) statement := by
  obtain ⟨-, refreshed, locked, -, refreshed'⟩ := claimed
  simp only [List.mem_append, List.mem_cons, List.not_mem_nil, reduceCtorEq, false_or,
    or_false] at ran
  rcases ran with lease | first | second | host | third | lease
  · rcases statement_leaseRefreshed refreshed lease with rfl | rfl
    · rfl
    · exact ⟨rfl, rfl⟩
  · obtain ⟨rfl, -, -⟩ := Event.ran.inj first
    exact ⟨rfl, rfl⟩
  · obtain ⟨rfl, -, -⟩ := Event.ran.inj second
    trivial
  · obtain ⟨host, -, rfl⟩ := statement_hostsLocked locked host
    exact ⟨rfl, rfl⟩
  · obtain ⟨rfl, -, -⟩ := Event.ran.inj third
    trivial
  · rcases statement_leaseRefreshed refreshed' lease with rfl | rfl
    · rfl
    · exact ⟨rfl, rfl⟩

section Parts

variable {workerId : String} {runId : Uuid} {now expiresAt s' s'' taken : Nat}
  {fresh : Uuid → HostLock} {hosts expected : List OpsRow} {lease locks lease' : List OpsEvent}
  {statement : OpsStatement} {shown : List OpsRow} {seen : Nat}
  (refreshed : LeaseRefreshed workerId none now expiresAt lease)
  (locked : HostsLocked now fresh (hostsOf hosts) taken locks)
  (refreshed' : LeaseRefreshed workerId (some runId) now expiresAt lease')
include refreshed locked refreshed'

/-- A claim chooses a run once. -/
theorem claimNext_once
    (ran : .ran statement shown seen ∈ ([.clock now] ++ lease) ++ .ran (.targets runId) hosts s' ::
      (locks ++ .ran (.targets runId) expected s'' :: lease')) (now' : Nat) (skipped : List Uuid) :
    statement ≠ .claimNext workerId now' skipped := by
  rintro rfl
  simp only [List.mem_append, List.mem_cons, List.not_mem_nil, reduceCtorEq, false_or, or_false,
    Event.ran.injEq, false_and] at ran
  rcases ran with early | host | late
  · rcases statement_leaseRefreshed refreshed early with wrong | wrong <;> cases wrong
  · obtain ⟨host, -, wrong⟩ := statement_hostsLocked locked host
    cases wrong
  · rcases statement_leaseRefreshed refreshed' late with wrong | wrong <;> cases wrong

/-- It locks the hosts of the targets that it has read. -/
theorem host_of_lockHost {rows : List OpsRow} {s : Nat} {skipped : List Uuid} {lock : HostLock}
    (ran : .ran (.lockHost lock now) shown seen ∈ ([.clock now] ++ lease) ++
      .ran (.claimNext workerId now skipped) rows s :: .ran (.targets runId) hosts s' ::
        (locks ++ .ran (.targets runId) expected s'' :: lease')) :
    ∃ host ∈ hostsOf hosts, lock = fresh host := by
  simp only [List.mem_append, List.mem_cons, List.not_mem_nil, reduceCtorEq, false_or, or_false,
    Event.ran.injEq, false_and] at ran
  rcases ran with early | among | late
  · rcases statement_leaseRefreshed refreshed early with wrong | wrong <;> cases wrong
  · obtain ⟨host, member, same⟩ := statement_hostsLocked locked among
    exact ⟨host, member, (OpsStatement.lockHost.inj same).1⟩
  · rcases statement_leaseRefreshed refreshed' late with wrong | wrong <;> cases wrong

end Parts

/-! ## Reading the targets -/

/-- The target is one of the run. -/
def IsTarget (store : OpsStore) (runId : Uuid) (target : RunTarget) : Prop :=
  lookup store (OpsKey.target target.runTargetId) = some (.target target) ∧ target.runId = runId

theorem lookup_target {store : OpsStore} {id : Uuid} {target : RunTarget} :
    lookup store (OpsKey.target id) = some (OpsRow.target target) ↔
      store.targets.lookup id = some target := by
  show (store.targets.lookup id).map OpsRow.target = _ ↔ _
  simp

variable {rows : List OpsRow}

/-- A query for the targets of a run. -/
theorem mem_targets {clash : OpsRow → OpsRow → Bool} {snapshot current : OpsStore}
    {writes : List (Write OpsKey OpsRow)} {runId : Uuid}
    (done : ((OpsStatement.targets runId).meaning snapshot).perform clash snapshot current =
      some (rows, writes)) {row : OpsRow} :
    row ∈ rows ↔ ∃ target, row = .target target ∧ IsTarget snapshot runId target := by
  obtain ⟨rfl, -⟩ := Prod.mk.inj (Option.some.inj done)
  simp only [List.mem_map, RunRepository.targets, List.mem_insertionSort, Table.mem_select]
  constructor
  · rintro ⟨target, ⟨found, ofRun⟩, rfl⟩
    exact ⟨target, rfl, lookup_target.mpr found, ofRun⟩
  · rintro ⟨target, rfl, found, ofRun⟩
    exact ⟨target, ⟨lookup_target.mp found, ofRun⟩, rfl⟩

/-- It shows no target twice. -/
theorem nodup_targets {clash : OpsRow → OpsRow → Bool} {snapshot current : OpsStore}
    {writes : List (Write OpsKey OpsRow)} {runId : Uuid}
    (done : ((OpsStatement.targets runId).meaning snapshot).perform clash snapshot current =
      some (rows, writes)) : (rows.map OpsRow.key).Nodup := by
  obtain ⟨rfl, -⟩ := Prod.mk.inj (Option.some.inj done)
  have distinct : ((RunRepository.targets snapshot.toStore runId).map
      RunTarget.runTargetId).Nodup := by
    refine ((List.perm_insertionSort _ _).map RunTarget.runTargetId).nodup_iff.mpr ?_
    exact snapshot.targets.unique.sublist (List.filter_sublist.map _)
  rw [List.map_map]
  have renamed : (OpsRow.key ∘ OpsRow.target) = OpsKey.target ∘ RunTarget.runTargetId := rfl
  rw [renamed, ← List.map_map]
  exact distinct.map fun _ _ => OpsKey.target.inj

/-- The hosts that are locked are those of the targets that have been read. -/
theorem mem_hostsOf {host : Uuid} :
    host ∈ hostsOf rows ↔ ∃ target, .target target ∈ rows ∧ target.hostId = host := by
  simp only [hostsOf, List.mem_insertionSort, List.mem_map, List.mem_filterMap,
    OpsRow.targets.unwrap_eq_some]
  constructor
  · rintro ⟨target, ⟨row, member, rfl⟩, rfl⟩
    exact ⟨target, member, rfl⟩
  · rintro ⟨target, member, rfl⟩
    exact ⟨target, ⟨_, member, rfl⟩, rfl⟩

theorem length_hostsOf_le (rows : List OpsRow) : (hostsOf rows).length ≤ rows.length := by
  rw [hostsOf, List.length_insertionSort, List.length_map]
  exact List.length_filterMap_le _ _

/-! ## Locks -/

/-- No more locks are taken than there are hosts. -/
theorem taken_le_hosts {now taken : Nat} {fresh : Uuid → HostLock} {hosts : List Uuid}
    {log : List OpsEvent} (locked : HostsLocked now fresh hosts taken log)
    (one : ∀ statement rows seen, .ran statement rows seen ∈ log → rows.length ≤ 1) :
    taken ≤ hosts.length := by
  induction locked with
  | nil => exact le_rfl
  | cons rest ih =>
      have head := one _ _ _ List.mem_cons_self
      have tail := ih fun statement rows seen ran =>
        one statement rows seen (List.mem_cons_of_mem _ ran)
      rw [List.length_cons]
      omega

/-- When as many locks have been taken as there are hosts, each of them has been. -/
theorem all_hostsLocked {now taken : Nat} {fresh : Uuid → HostLock} {hosts : List Uuid}
    {log : List OpsEvent} (locked : HostsLocked now fresh hosts taken log)
    (one : ∀ statement rows seen, .ran statement rows seen ∈ log → rows.length ≤ 1)
    (enough : hosts.length ≤ taken) :
    ∀ host ∈ hosts, ∃ rows seen,
      .ran (.lockHost (fresh host) now) rows seen ∈ log ∧ rows ≠ [] := by
  induction locked with
  | nil => exact fun host member => nomatch member
  | @cons host hosts taken seen rows events rest ih =>
      have head := one _ _ _ List.mem_cons_self
      have later := fun statement rows seen ran =>
        one statement rows seen (List.mem_cons_of_mem _ ran)
      have atMost := taken_le_hosts rest later
      rw [List.length_cons] at enough
      intro other member
      rcases List.mem_cons.mp member with rfl | isLater
      · refine ⟨rows, seen, List.mem_cons_self, ?_⟩
        rintro rfl
        rw [List.length_nil] at enough
        omega
      · obtain ⟨rows', seen', ran, some⟩ := ih later (by omega) other isLater
        exact ⟨rows', seen', List.mem_cons_of_mem _ ran, some⟩

section Runs

variable {settings : OpsSettings} {db : OpsDb} {place index now : Nat} {txn : OpsTxn}
  {answer : OpsAnswer} {workerId : String} {runId : Uuid}
  (committed : OpsCommit settings db place index txn answer) (account : OpsAccount settings db)
  (claims : ∀ statement shown seen, .ran statement shown seen ∈ txn.log →
    ClaimsBy workerId runId now (settings.worker.leaseUntil now) statement)
include committed account claims

variable {earlier later : List OpsEvent} {rows : List OpsRow} {skipped : List Uuid} {seen : Nat}
  {run : Run}

/-- **A lock that a claim has taken** was free, and is the worker's afterwards. -/
theorem host_of_taken {host : Uuid}
    (ran : .ran (.lockHost (runLock runId workerId now (settings.worker.leaseUntil now) host) now)
      rows seen ∈ txn.log) (taken : rows ≠ []) :
    (∀ lock, lookup (committedAt db place) (OpsKey.lock host) = some (.lock lock) →
        lock.expiresAt ≤ now) ∧
      lookup (committedAt db (place + 1)) (OpsKey.lock host) =
        some (.lock (runLock runId workerId now (settings.worker.leaseUntil now) host)) := by
  obtain ⟨earlier, later, split⟩ := List.append_of_mem ran
  obtain ⟨n, -, locks, kept⟩ := account.chronicle.ran_of_committed committed.next committed.found
    committed.done split
  have among : ∀ {event : OpsEvent}, event ∈ earlier ∨ event ∈ later → event ∈ txn.log := by
    rintro event (first | last)
    · exact split ▸ List.mem_append_left _ first
    · exact split ▸ List.mem_append_right _ (List.mem_cons_of_mem _ last)
  rcases perform_lockHost locks.performed with ⟨rfl, free⟩ | ⟨rfl, -⟩
  swap
  · exact absurd rfl taken
  constructor
  · -- what the claim has renewed or taken before has not expired
    have before := committed.between (P := fun row? =>
      row? = lookup (committedAt db place) (OpsKey.lock host) ∨
        ∃ lock, row? = some (.lock lock) ∧ lock.expiresAt = settings.worker.leaseUntil now)
      (show txn.log = [] ++ earlier ++ _ from split) ?_ (.inl rfl)
    · have touched_ : OpsKey.lock host ∈ touched OpsStore (logged OpsStatement.effects earlier ++
          [.put (.lock (runLock runId workerId now (settings.worker.leaseUntil now) host))]) := by
        rw [touched_append]
        exact List.mem_append_right _ List.mem_cons_self
      have same := lookup_applyAll_congr (logged OpsStatement.effects earlier) (kept _ touched_)
      intro lock isLock
      rcases before with isSame | ⟨renewed, isRenewed, expires⟩
      · exact free lock (same.trans (isSame.trans isLock))
      · have expired := free renewed (same.trans isRenewed)
        rw [expires] at expired
        exact absurd (settings.worker.lt_leaseUntil now) (Nat.not_lt.mpr expired)
    · rintro statement shown seen' isEarlier snapshot old? new? - isNew change holds
      rcases claim_changes (claims _ _ _ (among (.inl isEarlier))) change with
        ⟨lease, rfl, -⟩ | ⟨skipped, run, -, rfl⟩ | ⟨lock, -, -, rfl⟩ | ⟨other, -, rfl⟩
      · cases isNew _ rfl
      · cases isNew _ rfl
      · exact .inr ⟨_, rfl, rfl⟩
      · exact .inr ⟨_, rfl, rfl⟩
  · refine committed.put_stays split rfl ?_
    rintro statement shown seen' isLater snapshot new? isNew change
    rcases claim_changes (claims _ _ _ (among (.inr isLater))) change with
      ⟨lease, rfl, -⟩ | ⟨skipped, run, -, rfl⟩ | ⟨lock, -, isLock, rfl⟩ | ⟨other, -, rfl⟩
    · cases isNew _ rfl
    · cases isNew _ rfl
    · obtain rfl := OpsRow.lock.inj (Option.some.inj isLock)
      rfl
    · obtain rfl : other = host := OpsKey.lock.inj (isNew _ rfl)
      rfl

/-- The rows that a statement of a claim has written. -/
theorem touched_of_claims {statement : OpsStatement} {shown : List OpsRow}
    (ran : .ran statement shown seen ∈ txn.log) {k : OpsKey}
    (isTouched : k ∈ touched OpsStore (OpsStatement.effects statement shown)) :
    (∃ id, k = .lease id) ∨ (∃ host, k = .lock host) ∨
      ((∃ id, k = .run id) ∧ ∃ skipped, statement = .claimNext workerId now skipped) := by
  obtain ⟨first, second, split⟩ := List.append_of_mem ran
  obtain ⟨n, -, performed, -⟩ := account.chronicle.ran_of_committed committed.next committed.found
    committed.done split
  have change := (Command.perform_changes performed.performed isTouched).2
  rcases claim_changes (claims _ _ _ ran) change with
    ⟨lease, after, -⟩ | ⟨skipped, run, rfl, after⟩ | ⟨lock, -, -, after⟩ | ⟨host, -, after⟩
  · exact .inl ⟨_, (key_of_lookup after).symm⟩
  · exact .inr (.inr ⟨⟨_, (key_of_lookup after).symm⟩, skipped, rfl⟩)
  · exact .inr (.inl ⟨_, (key_of_lookup after).symm⟩)
  · exact .inr (.inl ⟨_, (key_of_lookup after).symm⟩)

/-- The rows that a claim has written. -/
theorem touched_claim (split : txn.log = earlier ++ later)
    {k : OpsKey} (isTouched : k ∈ touched OpsStore (logged OpsStatement.effects earlier)) :
    (∃ id, k = .lease id) ∨ (∃ host, k = .lock host) ∨
      ((∃ id, k = .run id) ∧ ∃ skipped rows seen,
        .ran (.claimNext workerId now skipped) rows seen ∈ earlier) := by
  obtain ⟨write, isWrite, rfl⟩ := mem_touched.mp isTouched
  obtain ⟨statement, shown, seen, ran, among⟩ := mem_logged.mp isWrite
  have member : .ran statement shown seen ∈ txn.log := split ▸ List.mem_append_left _ ran
  rcases touched_of_claims committed account claims member
    (mem_touched.mpr ⟨write, among, rfl⟩) with lease | lock | ⟨isRun, skipped, rfl⟩
  · exact .inl lease
  · exact .inr (.inl lock)
  · exact .inr (.inr ⟨isRun, skipped, shown, seen, ran⟩)

/-- **The run that a claim has chosen** was queued, and is in preparation afterwards. -/
theorem run_of_chosen
    (split : txn.log = earlier ++ .ran (.claimNext workerId now skipped) rows seen :: later)
    (others : ∀ statement shown seen, .ran statement shown seen ∈ earlier ++ later →
      ∀ now skipped, statement ≠ .claimNext workerId now skipped)
    (isChosen : run? rows = some run) :
    (∃ old, lookup (committedAt db place) (OpsKey.run run.runId) = some (.run old) ∧
        old.status = .queued ∧ run = claimedBy workerId now old) ∧
      lookup (committedAt db (place + 1)) (OpsKey.run run.runId) = some (.run run) := by
  obtain ⟨n, -, chooses, kept⟩ := account.chronicle.ran_of_committed committed.next committed.found
    committed.done split
  have among : ∀ {event : OpsEvent}, event ∈ earlier ∨ event ∈ later → event ∈ txn.log := by
    rintro event (first | last)
    · exact split ▸ List.mem_append_left _ first
    · exact split ▸ List.mem_append_right _ (List.mem_cons_of_mem _ last)
  have leaves : ∀ statement shown seen, .ran statement shown seen ∈ earlier ++ later →
      ∀ (snapshot : OpsStore) (old? new? : Option OpsRow),
        (∀ row, new? = some row → key OpsStore row = OpsKey.run run.runId) →
          Command.Changes (statement.meaning snapshot) old? new? → new? = old? := by
    intro statement shown seen ran snapshot old? new? isNew change
    rcases claim_changes (claims _ _ _ (among (List.mem_append.mp ran))) change with
      ⟨lease, rfl, -⟩ | ⟨skipped, run, rfl, -⟩ | ⟨lock, -, -, rfl⟩ | ⟨other, -, rfl⟩
    · cases isNew _ rfl
    · exact absurd rfl (others _ _ _ ran now skipped)
    · cases isNew _ rfl
    · cases isNew _ rfl
  have member := mem_of_run? isChosen
  have chosen : (opsSet OpsRow.runs _ (claimedBy workerId now) fun _ => rfl).perform OpsRow.clash
      _ _ = some (rows, rows.map .put) := chooses.performed
  have isLast := fun state => RowKind.lookup_updated (OpsRow.runs.map_wrap _) chosen member state
  obtain ⟨old, found, holds, -, same⟩ :=
    (RowKind.mem_updated (OpsRow.runs.map_wrap _) chosen).mp member
  obtain rfl := OpsRow.run.inj same
  obtain ⟨queued, -⟩ := of_decide_eq_true holds
  constructor
  · refine ⟨old, ?_, queued, rfl⟩
    have before := committed.between
      (P := (· = lookup (committedAt db place) (OpsKey.run old.runId)))
      (show txn.log = [] ++ earlier ++ _ from split)
      (fun statement shown seen ran snapshot old? new? _ isNew change same =>
        (leaves statement shown seen (List.mem_append_left _ ran) snapshot old? new? isNew
          change).trans same) rfl
    have isTouched : OpsKey.run old.runId ∈ touched OpsStore (logged OpsStatement.effects earlier ++
        OpsStatement.effects (.claimNext workerId now skipped) rows) := by
      rw [touched_append]
      exact List.mem_append_right _ (mem_touched.mpr ⟨_, List.mem_map_of_mem member, rfl⟩)
    exact (before.symm.trans (lookup_applyAll_congr _ (kept _ isTouched)).symm).trans found
  · have split' : txn.log = (earlier ++ [.ran (.claimNext workerId now skipped) rows seen]) ++
        later := by
      rw [split, List.append_assoc, List.singleton_append]
    refine committed.onwards (P := (· = some (.run (claimedBy workerId now old)))) split' ?_ ?_
    · exact fun statement shown seen ran snapshot old? new? _ isNew change same =>
        (leaves statement shown seen (List.mem_append_right _ ran) snapshot old? new? isNew
          change).trans same
    · rw [logged_append, applyAll_append, logged_ran, logged_nil, List.append_nil]
      exact isLast _

omit claims in
/-- The last heartbeat of a claim leaves the lease of the worker. -/
theorem lease_of_refreshed {lease : List OpsEvent} {runId? : Option Uuid}
    (split : txn.log = earlier ++ (lease ++ later))
    (refreshed : LeaseRefreshed workerId runId? now (settings.worker.leaseUntil now) lease)
    (chooses : ∀ statement shown seen, .ran statement shown seen ∈ later →
      ∃ skipped, statement = .claimNext workerId now skipped) :
    lookup (committedAt db (place + 1)) (OpsKey.lease workerId) = some (.lease
      { workerId := workerId
        runId := runId?
        heartbeatAt := now
        expiresAt := settings.worker.leaseUntil now }) := by
  obtain ⟨⟩ := refreshed
  obtain ⟨n, -, ran, -⟩ := account.chronicle.ran_of_committed committed.next committed.found
    committed.done split
  have isRow : ∀ {shown : List OpsRow} {writes : List (Write OpsKey OpsRow)}
      {snapshot current : OpsStore} {lease : WorkerLease},
      ((OpsStatement.upsertLease lease).meaning snapshot).perform OpsRow.clash snapshot current =
        some (shown, writes) → shown = [.lease lease] := by
    intro shown writes snapshot current lease done
    rcases Command.perform_upsert done with ⟨-, rfl, -⟩ | ⟨old, found, rfl, -⟩
    · rfl
    · obtain ⟨lease', rfl, named⟩ := lease_of_key (key_of_lookup found)
      cases lease'
      cases named
      rfl
  obtain rfl := isRow ran.performed
  refine committed.put_stays split rfl ?_
  rintro statement shown seen isLater snapshot new? isNew change
  rcases List.mem_cons.mp isLater with isLock | isChoice
  · obtain ⟨rfl, -, -⟩ := Event.ran.inj isLock
    have change : Command.Changes ((OpsStatement.refreshLocks workerId
      (settings.worker.leaseUntil now)).meaning snapshot) _ new? := change
    have touches := touches_of_changes change
    cases touches
  · obtain ⟨skipped, rfl⟩ := chooses statement shown seen isChoice
    have change : Command.Changes ((OpsStatement.claimNext workerId now skipped).meaning snapshot)
      _ new? := change
    have touches := touches_of_changes change
    cases touches

/-- **The targets that a claim reads** are those of the run at the time. -/
theorem targets_of_claim (split : txn.log = earlier ++ .ran (.targets runId) rows seen :: later) :
    seen ≤ place ∧ (rows.map OpsRow.key).Nodup ∧
      (∀ row, row ∈ rows ↔
        ∃ target, row = .target target ∧ IsTarget (committedAt db seen) runId target) ∧
      ∀ statement shown seen', .ran statement shown seen' ∈ later → seen ≤ seen' := by
  obtain ⟨n, ran, before⟩ := account.chronicle.ran index txn committed.found earlier _ rows seen
    later split
  have unfinished : txn.status ≠ .aborted := by simp [committed.done]
  have here := account.chronicle.place_of_history committed.next
  have same : ∀ id, lookup (applyAll (committedAt db seen) (logged OpsStatement.effects earlier))
      (OpsKey.target id) = lookup (committedAt db seen) (OpsKey.target id) := by
    refine fun id => lookup_applyAll_of_not_mem _ fun isTouched => ?_
    rcases touched_claim committed account claims split isTouched with
      ⟨_, wrong⟩ | ⟨_, wrong⟩ | ⟨⟨_, wrong⟩, -⟩ <;> cases wrong
  refine ⟨ran.le.trans (here ▸ before.place unfinished), nodup_targets ran.performed,
    fun row => ?_, fun statement shown seen' isLater =>
      ran.le.trans (before.ordered statement shown seen' isLater)⟩
  rw [mem_targets ran.performed]
  simp only [IsTarget]
  exact exists_congr fun target => and_congr_right fun _ => and_congr_left fun _ =>
    (same target.runTargetId).congr_left

/-- **The run that a claim has chosen** has been there when it was chosen, and is the only
one. -/
theorem run_when_chosen
    (split : txn.log = earlier ++ .ran (.claimNext workerId now skipped) rows seen :: later)
    (others : ∀ statement shown seen, .ran statement shown seen ∈ earlier ++ later →
      ∀ now skipped, statement ≠ .claimNext workerId now skipped)
    (isChosen : .run run ∈ rows) :
    (∃ n old, lookup (committedAt db n) (OpsKey.run run.runId) = some (.run old) ∧
        ∀ statement shown seen', .ran statement shown seen' ∈ later → n ≤ seen') ∧
      ∀ id, OpsKey.run id ∈ touched OpsStore (logged OpsStatement.effects txn.log) →
        id = run.runId := by
  obtain ⟨n, ran, before⟩ := account.chronicle.ran index txn committed.found earlier _ rows seen
    later split
  have updated : (opsSet OpsRow.runs _ (claimedBy workerId now) fun _ => rfl).perform OpsRow.clash
      _ _ = some (rows, rows.map .put) := ran.performed
  have chosen : ∀ row ∈ rows, ∃ old : Run, row = .run (claimedBy workerId now old) ∧
      lookup (applyAll (committedAt db n) (logged OpsStatement.effects earlier))
        (OpsKey.run old.runId) = some (.run old) ∧
      ∃ candidate, RunRepository.candidate (applyAll (committedAt db seen)
        (logged OpsStatement.effects earlier)).toStore now skipped = some candidate ∧
          candidate.runId = old.runId := by
    intro row member
    obtain ⟨old, found, holds, -, same⟩ :=
      (RowKind.mem_updated (OpsRow.runs.map_wrap _) updated).mp member
    obtain ⟨-, isAny⟩ := of_decide_eq_true holds
    subst same
    refine ⟨old, rfl, found, ?_⟩
    cases isCandidate : RunRepository.candidate (applyAll (committedAt db seen)
        (logged OpsStatement.effects earlier)).toStore now skipped with
    | none =>
        rw [isCandidate] at isAny
        cases isAny
    | some candidate =>
        rw [isCandidate] at isAny
        exact ⟨candidate, rfl, of_decide_eq_true isAny⟩
  obtain ⟨old, isRun, found, candidate, isCandidate, named⟩ := chosen _ isChosen
  obtain rfl := OpsRow.run.inj isRun
  constructor
  · refine ⟨n, old, ?_, before.ordered⟩
    refine (lookup_applyAll_of_not_mem _ fun isTouched => ?_).symm.trans found
    rcases touched_claim committed account claims split isTouched with
      ⟨_, wrong⟩ | ⟨_, wrong⟩ | ⟨-, skipped', rows', seen', isRan⟩
    · cases wrong
    · cases wrong
    · exact others _ _ _ (List.mem_append_left _ isRan) now skipped' rfl
  · intro id isTouched
    obtain ⟨write, isWrite, same⟩ := mem_touched.mp isTouched
    obtain ⟨statement, shown, seen', isRan, among⟩ := mem_logged.mp isWrite
    rcases touched_of_claims committed account claims isRan (mem_touched.mpr ⟨write, among, same⟩)
      with ⟨_, wrong⟩ | ⟨_, wrong⟩ | ⟨-, skipped', rfl⟩
    · cases wrong
    · cases wrong
    · rw [split] at isRan
      rcases List.mem_append.mp isRan with before | isHere
      · exact absurd rfl (others _ _ _ (List.mem_append_left _ before) now skipped')
      rcases List.mem_cons.mp isHere with isSame | after
      swap
      · exact absurd rfl (others _ _ _ (List.mem_append_right _ after) now skipped')
      obtain ⟨-, rfl, -⟩ := Event.ran.inj isSame
      obtain ⟨row, member, rfl⟩ := List.mem_map.mp among
      obtain ⟨old', rfl, -, candidate', isCandidate', named'⟩ := chosen row member
      obtain rfl := Option.some.inj (isCandidate.symm.trans isCandidate')
      exact (OpsKey.run.inj same).symm.trans (named'.symm.trans named)

/-- **The hosts that a claim locks** are those of the targets of the run at the commit, and there
are no more of them than the targets that it counts. -/
theorem hosts_of_claim {locks : List OpsEvent}
    {hosts expected : List OpsRow} {seen' seen'' : Nat}
    (split : txn.log = earlier ++ .ran (.claimNext workerId now skipped) rows seen ::
      .ran (.targets runId) hosts seen' ::
        (locks ++ .ran (.targets runId) expected seen'' :: later))
    (others : ∀ statement shown seen, .ran statement shown seen ∈ earlier ++
      .ran (.targets runId) hosts seen' ::
        (locks ++ .ran (.targets runId) expected seen'' :: later) →
        ∀ now skipped, statement ≠ .claimNext workerId now skipped)
    (isChosen : .run run ∈ rows) (named : run.runId = runId) :
    (∀ host, host ∈ hostsOf hosts ↔
        ∃ target, IsTarget (committedAt db place) runId target ∧ target.hostId = host) ∧
      hosts.length ≤ expected.length := by
  have bound : place ≤ db.history.length :=
    (List.getElem?_eq_some_iff.mp committed.next).1.le
  obtain ⟨⟨n, old, found, ordered⟩, -⟩ :=
    run_when_chosen committed account claims split others isChosen
  have splitFirst : txn.log = (earlier ++ [.ran (.claimNext workerId now skipped) rows seen]) ++
      .ran (.targets runId) hosts seen' :: (locks ++
        .ran (.targets runId) expected seen'' :: later) := by
    rw [split, List.append_assoc, List.singleton_append]
  have splitSecond : txn.log = (earlier ++ .ran (.claimNext workerId now skipped) rows seen ::
      .ran (.targets runId) hosts seen' :: locks) ++
        .ran (.targets runId) expected seen'' :: later := by
    rw [split]
    simp
  obtain ⟨first, nodup, isFirst, orderedFirst⟩ :=
    targets_of_claim committed account claims splitFirst
  obtain ⟨second, -, isSecond, -⟩ := targets_of_claim committed account claims splitSecond
  have chosenBefore : n ≤ seen' := ordered _ _ _ List.mem_cons_self
  have isOrdered : seen' ≤ seen'' :=
    orderedFirst _ _ _ (List.mem_append_right _ List.mem_cons_self)
  obtain ⟨middle, isRun, -⟩ := run_later account chosenBefore (first.trans bound) found
  constructor
  · intro host
    rw [mem_hostsOf]
    constructor
    · -- a target that was read is still there
      rintro ⟨target, member, rfl⟩
      obtain ⟨_, isSame, isThere, ofRun⟩ := (isFirst _).mp member
      obtain rfl := OpsRow.target.inj isSame
      obtain ⟨now, isNow, same⟩ := target_later account first bound isThere
      refine ⟨now, ⟨?_, same.runId.trans ofRun⟩, same.hostId⟩
      rw [same.runTargetId]
      exact isNow
    · -- a target of the run was there when the targets were read
      rintro ⟨target, ⟨isThere, ofRun⟩, rfl⟩
      obtain ⟨before, isBefore, same⟩ :=
        target_since account first bound isRun isThere (ofRun.trans named.symm)
      refine ⟨before, (isFirst _).mpr ⟨before, rfl, ?_, same.runId.symm.trans ofRun⟩,
        same.hostId.symm⟩
      rw [← same.runTargetId]
      exact isBefore
  · have subset : hosts.map OpsRow.key ⊆ expected.map OpsRow.key := by
      intro k member
      obtain ⟨row, isRead, rfl⟩ := List.mem_map.mp member
      obtain ⟨target, rfl, isThere, ofRun⟩ := (isFirst row).mp isRead
      obtain ⟨later, isLater, same⟩ := target_later account isOrdered (second.trans bound) isThere
      refine List.mem_map.mpr ⟨.target later, (isSecond _).mpr ⟨later, rfl, ?_⟩, ?_⟩
      · rw [IsTarget, same.runTargetId]
        exact ⟨isLater, same.runId.trans ofRun⟩
      · exact congrArg OpsKey.target same.runTargetId
    have counted := (List.subperm_of_subset nodup subset).length_le
    simpa only [List.length_map] using counted

end Runs

/-! ## All or nothing -/

/-- The commit after so many others leaves the run in preparation for the worker, with the lock of
every host of the run, and beside this it has renewed some locks of the worker. -/
structure ClaimedAt (settings : OpsSettings) (db : OpsDb) (place : Nat) (workerId : String)
    (now : Nat) (run : Run) : Prop where
  queued : ∃ old, lookup (committedAt db place) (OpsKey.run run.runId) = some (.run old) ∧
    old.status = .queued ∧ run = claimedBy workerId now old
  claimed : lookup (committedAt db (place + 1)) (OpsKey.run run.runId) = some (.run run)
  free : ∀ target, IsTarget (committedAt db place) run.runId target → ∀ lock,
    lookup (committedAt db place) (OpsKey.lock target.hostId) = some (.lock lock) →
      lock.expiresAt ≤ now
  locked : ∀ target, IsTarget (committedAt db place) run.runId target →
    lookup (committedAt db (place + 1)) (OpsKey.lock target.hostId) = some (.lock
      (runLock run.runId workerId now (settings.worker.leaseUntil now) target.hostId))
  leased : lookup (committedAt db (place + 1)) (OpsKey.lease workerId) = some (.lease
    { workerId := workerId
      runId := some run.runId
      heartbeatAt := now
      expiresAt := settings.worker.leaseUntil now })
  others : ∀ k, k ≠ .run run.runId → k ≠ .lease workerId →
    (∀ target, IsTarget (committedAt db place) run.runId target → k ≠ .lock target.hostId) →
      LockRenewed workerId (settings.worker.leaseUntil now) (lookup (committedAt db place) k)
        (lookup (committedAt db (place + 1)) k)

/-- The commit after so many others has claimed nothing: it has renewed the lease and locks of the
worker. -/
structure IdledAt (settings : OpsSettings) (db : OpsDb) (place : Nat) (workerId : String)
    (now : Nat) : Prop where
  leased : lookup (committedAt db (place + 1)) (OpsKey.lease workerId) = some (.lease
    { workerId := workerId
      runId := none
      heartbeatAt := now
      expiresAt := settings.worker.leaseUntil now })
  others : ∀ k, k ≠ .lease workerId →
    LockRenewed workerId (settings.worker.leaseUntil now) (lookup (committedAt db place) k)
      (lookup (committedAt db (place + 1)) k)

section Runs

variable {settings : OpsSettings} {db : OpsDb} {place index : Nat} {txn : OpsTxn}
  {answer : OpsAnswer} {workerId : String} {skipped : List Uuid}

/-- A lock that is taken shows one row. -/
theorem OpsCommit.shows_one {lock : HostLock} {now seen : Nat} {shown : List OpsRow}
    (committed : OpsCommit settings db place index txn answer) (account : OpsAccount settings db)
    (ran : .ran (.lockHost lock now) shown seen ∈ txn.log) : shown.length ≤ 1 := by
  obtain ⟨earlier, later, split⟩ := List.append_of_mem ran
  obtain ⟨n, -, performed, -⟩ := account.chronicle.ran_of_committed committed.next committed.found
    committed.done split
  rcases perform_lockHost performed.performed with ⟨rfl, -⟩ | ⟨rfl, -⟩
  · exact le_rfl
  · exact Nat.zero_le 1

/-- Beside its lease, the runs it chooses and the hosts it locks, a claim renews locks. -/
theorem OpsCommit.renews {runId : Uuid} {now : Nat} {k : OpsKey}
    (committed : OpsCommit settings db place index txn answer)
    (claims : ∀ statement shown seen, .ran statement shown seen ∈ txn.log →
      ClaimsBy workerId runId now (settings.worker.leaseUntil now) statement)
    (notRun : ∀ id, OpsKey.run id ∈ touched OpsStore (logged OpsStatement.effects txn.log) →
      k ≠ .run id)
    (notHost : ∀ host shown seen, .ran (.lockHost
      (runLock runId workerId now (settings.worker.leaseUntil now) host) now) shown seen ∈ txn.log →
        k ≠ .lock host) (notLease : k ≠ .lease workerId) :
    LockRenewed workerId (settings.worker.leaseUntil now) (lookup (committedAt db place) k)
      (lookup (committedAt db (place + 1)) k) := by
  by_cases isTouched : k ∈ touched OpsStore (logged OpsStatement.effects txn.log)
  swap
  · have unchanged : lookup (committedAt db (place + 1)) k = lookup (committedAt db place) k :=
      (congrArg (lookup · k) committed.after).trans (lookup_applyAll_of_not_mem _ isTouched)
    rw [unchanged]
    exact .same
  refine committed.keeps (P := LockRenewed workerId (settings.worker.leaseUntil now)
    (lookup (committedAt db place) k)) ?_ .same
  rintro statement shown seen ran snapshot old? new? - isNew change before
  rcases claim_changes (claims _ _ _ ran) change with
    ⟨lease, rfl, rfl⟩ | ⟨skipped, other, -, rfl⟩ | ⟨lock, isOwn, rfl, rfl⟩ | ⟨host, rfl, rfl⟩
  · have own : lease.workerId = workerId := claims _ _ _ ran
    exact absurd ((isNew _ rfl).symm.trans (congrArg OpsKey.lease own)) notLease
  · obtain rfl : OpsKey.run other.runId = k := isNew _ rfl
    exact absurd rfl (notRun _ isTouched)
  · exact before.trans (.refreshed isOwn)
  · obtain rfl : OpsKey.lock host = k := isNew _ rfl
    exact absurd rfl (notHost host shown seen ran)

/-- **A claim that ends with a run.** -/
theorem OpsCommit.claimed {run : Run}
    (committed : OpsCommit settings db place index txn (.claimed (some run)))
    (account : OpsAccount settings db) (call : txn.call = .claim workerId skipped) :
    ∃ now, .clock now ∈ txn.log ∧ ClaimedAt settings db place workerId now run := by
  have outcome := committed.outcome
  rw [call] at outcome
  obtain ⟨now, read, claimed⟩ := claimLog_of_outcome outcome
  have claims : ∀ statement shown seen, .ran statement shown seen ∈ txn.log →
      ClaimsBy workerId run.runId now (settings.worker.leaseUntil now) statement :=
    fun statement shown seen => claimsBy_of_claimLog claimed
  refine ⟨now, read, ?_⟩
  generalize log : txn.log = events at claimed
  obtain ⟨isChosen, refreshed, locked, all, refreshed'⟩ := claimed
  rename_i skipped' rows hosts expected s s' s'' taken lease locks lease'
  have once : ∀ statement shown seen, .ran statement shown seen ∈ ([.clock now] ++ lease) ++
      .ran (.targets run.runId) hosts s' :: (locks ++ .ran (.targets run.runId) expected s'' ::
        lease') → ∀ now skipped, statement ≠ .claimNext workerId now skipped :=
    fun statement shown seen => claimNext_once refreshed locked refreshed'
  have member := mem_of_run? isChosen
  obtain ⟨queued, isClaimed⟩ := run_of_chosen committed account claims log once isChosen
  obtain ⟨-, only⟩ := run_when_chosen committed account claims log once member
  obtain ⟨isHost, counted⟩ := hosts_of_claim committed account claims log once member rfl
  have enough : (hostsOf hosts).length ≤ taken :=
    (length_hostsOf_le hosts).trans (counted.trans all.ge)
  have among : ∀ {event : OpsEvent}, event ∈ locks → event ∈ txn.log := by
    intro event isLock
    rw [log]
    exact List.mem_append_right _ (List.mem_cons_of_mem _ (List.mem_cons_of_mem _
      (List.mem_append_left _ isLock)))
  have one : ∀ statement rows seen, .ran statement rows seen ∈ locks → rows.length ≤ 1 := by
    intro statement rows seen ran
    obtain ⟨host, -, rfl⟩ := statement_hostsLocked locked ran
    exact committed.shows_one account (among ran)
  have each : ∀ target, IsTarget (committedAt db place) run.runId target →
      (∀ lock, lookup (committedAt db place) (OpsKey.lock target.hostId) = some (.lock lock) →
        lock.expiresAt ≤ now) ∧
      lookup (committedAt db (place + 1)) (OpsKey.lock target.hostId) = some (.lock
        (runLock run.runId workerId now (settings.worker.leaseUntil now) target.hostId)) := by
    intro target isTarget
    obtain ⟨rows, seen, ran, some⟩ := all_hostsLocked locked one enough target.hostId
      ((isHost _).mpr ⟨target, isTarget, rfl⟩)
    exact host_of_taken committed account claims (among ran) some
  have split : txn.log = (([.clock now] ++ lease) ++
      .ran (.claimNext workerId now skipped') rows s :: .ran (.targets run.runId) hosts s' ::
        (locks ++ [.ran (.targets run.runId) expected s''])) ++ (lease' ++ []) := by
    rw [log]
    simp
  have leased := lease_of_refreshed committed account split refreshed' fun _ _ _ ran => by cases ran
  refine ⟨queued, isClaimed, fun target isTarget => (each target isTarget).1,
    fun target isTarget => (each target isTarget).2, leased, ?_⟩
  intro k notRun notLease notHost
  refine committed.renews claims (fun id isTouched same => ?_) (fun host shown seen ran same => ?_)
    notLease
  · exact notRun (same.trans (congrArg OpsKey.run (only id isTouched)))
  · obtain ⟨host', isLocked, isLock⟩ := host_of_lockHost refreshed locked refreshed' (log ▸ ran)
    obtain rfl : host = host' := congrArg HostLock.hostId isLock
    obtain ⟨target, isTarget, rfl⟩ := (isHost host).mp isLocked
    exact notHost target isTarget same

/-- **A claim that ends without a run.** -/
theorem OpsCommit.idled (committed : OpsCommit settings db place index txn (.claimed none))
    (account : OpsAccount settings db) (call : txn.call = .claim workerId skipped) :
    ∃ now, .clock now ∈ txn.log ∧ IdledAt settings db place workerId now := by
  have outcome := committed.outcome
  rw [call] at outcome
  generalize log : txn.log = events at outcome
  cases outcome with
  | plain isPlain only => cases isPlain
  | @idle _ _ now seen rows lease none refreshed =>
      have split : txn.log = ([.clock now] ++ lease) ++
          .ran (.claimNext workerId now skipped) rows seen :: [] := log
      -- nothing but runs is shown, and the first row is none
      have nothing : rows = [] := by
        obtain ⟨n, -, ran, -⟩ := account.chronicle.ran_of_committed committed.next committed.found
          committed.done split
        have updated : (opsSet OpsRow.runs _ (claimedBy workerId now) fun _ => rfl).perform
            OpsRow.clash _ _ = some (rows, rows.map .put) := ran.performed
        cases rows with
        | nil => rfl
        | cons row rest =>
            obtain ⟨old, -, -, -, rfl⟩ := (RowKind.mem_updated (OpsRow.runs.map_wrap _)
              updated).mp List.mem_cons_self
            cases none
      subst nothing
      have each : ∀ {statement : OpsStatement} {shown : List OpsRow} {seen' : Nat},
          .ran statement shown seen' ∈ txn.log → .ran statement shown seen' ∈ lease ∨
            statement = .claimNext workerId now skipped ∧ shown = [] := by
        intro statement shown seen' ran
        rw [split] at ran
        simp only [List.mem_append, List.mem_cons, List.not_mem_nil, reduceCtorEq, false_or,
          or_false, Event.ran.injEq] at ran
        exact ran.imp_right fun ⟨isChoice, isNothing, _⟩ => ⟨isChoice, isNothing⟩
      have claims : ∀ statement shown seen', .ran statement shown seen' ∈ txn.log →
          ClaimsBy workerId 0 now (settings.worker.leaseUntil now) statement := by
        intro statement shown seen' ran
        rcases each ran with early | ⟨rfl, -⟩
        · rcases statement_leaseRefreshed refreshed early with rfl | rfl
          · rfl
          · exact ⟨rfl, rfl⟩
        · exact ⟨rfl, rfl⟩
      have split' : txn.log = [.clock now] ++
          (lease ++ [.ran (.claimNext workerId now skipped) [] seen]) := by
        rw [log, List.append_assoc]
      refine ⟨now, List.mem_cons_self, ?_, fun k notLease => ?_⟩
      · refine lease_of_refreshed committed account split' refreshed ?_
        intro statement shown seen' ran
        obtain ⟨rfl, -⟩ := Event.ran.inj (List.mem_singleton.mp ran)
        exact ⟨_, rfl⟩
      · refine committed.renews claims ?_ ?_ notLease
        · rintro id isTouched -
          obtain ⟨write, isWrite, same⟩ := mem_touched.mp isTouched
          obtain ⟨statement, shown, seen', ran, among⟩ := mem_logged.mp isWrite
          rcases touched_of_claims committed account claims ran
            (mem_touched.mpr ⟨write, among, same⟩) with ⟨_, wrong⟩ | ⟨_, wrong⟩ | ⟨-, skipped', rfl⟩
          · cases wrong
          · cases wrong
          · rcases each ran with early | ⟨-, rfl⟩
            · rcases statement_leaseRefreshed refreshed early with wrong | wrong <;> cases wrong
            · cases among
        · rintro host shown seen' ran -
          rcases each ran with early | ⟨wrong, -⟩
          · rcases statement_leaseRefreshed refreshed early with wrong | wrong <;> cases wrong
          · cases wrong

end Runs

/-- **A claim takes all or nothing.** A claim that has been answered is one commit. If the answer
names a run, that run was queued and none of the hosts of its targets had an unexpired lock; the
commit leaves the run in preparation for the worker, the worker with the lock of every one of
these hosts and with a lease of the run, and beside this it renews locks that the worker held. If
it names none, the commit renews the lease and the locks of the worker. -/
theorem claim_all_or_nothing (settings : OpsSettings) {world : OpsWorld}
    (reached : (opsSystem settings (· = OpsStore.empty)).Reachable world) {index : Nat}
    {workerId : String} {skipped : List Uuid} {answer? : Option Run}
    (answered : Answered world.db index (.claim workerId skipped) (.claimed answer?)) :
    ∃ place now txn, world.db.history[place]? = some index ∧ world.db.txns[index]? = some txn ∧
      .clock now ∈ txn.log ∧
      (∀ run, answer? = some run → ClaimedAt settings world.db place workerId now run) ∧
      (answer? = none → IdledAt settings world.db place workerId now) := by
  have account := ((requested_inductive settings).of_reachable reached).account
  obtain ⟨place, txn, committed, call⟩ := commit_of_answered account answered
  cases answer? with
  | none =>
      obtain ⟨now, read, idled⟩ := OpsCommit.idled committed account call
      exact ⟨place, now, txn, committed.next, committed.found, read,
        fun run isSome => absurd isSome (Option.some_ne_none run).symm, fun _ => idled⟩
  | some run =>
      obtain ⟨now, read, claimed⟩ := OpsCommit.claimed committed account call
      refine ⟨place, now, txn, committed.next, committed.found, read, fun other same => ?_,
        fun isNone => absurd isNone (Option.some_ne_none run)⟩
      obtain rfl := Option.some.inj same
      exact claimed

/-- A run is requested, and a worker claims it. -/
def claiming : List (DbAct OpsCall) :=
  [.onDb (.begin (.persist (requestDraft 10 11 12) [])), .onDb (.perform 0), .onDb (.perform 0),
    .onDb (.perform 0), .onDb (.perform 0), .onDb (.commit 0)] ++
  calling 1 8 (.claim "worker" []) ++ [.onDb (.commit 1)]

/-- The unit of work is a claim of the worker that has been answered with a run. -/
def hasClaimed (txn : OpsTxn) : Bool :=
  match txn.call, txn.program with
  | .claim workerId _, .done (.claimed (some _)) =>
      decide (workerId = "worker" ∧ txn.status = .committed)
  | _, _ => false

theorem answered_of_hasClaimed {db : OpsDb} {index : Nat}
    (claimed : db.txns[index]?.any hasClaimed = true) :
    ∃ skipped run, Answered db index (.claim "worker" skipped) (.claimed (some run)) := by
  obtain ⟨txn, found, has⟩ := (Option.any_eq_true _ _).mp claimed
  unfold hasClaimed at has
  split at has
  · rename_i call program
    obtain ⟨rfl, done⟩ := of_decide_eq_true has
    exact ⟨_, _, txn, found, call, done, program⟩
  · cases has

/-- The run that has been requested is claimed, with the lock of its host. -/
theorem claim_all_or_nothing_claimed : ∃ world place now run,
    (opsSystem deploymentSettings (· = OpsStore.empty)).exec freshWorld claiming = some world ∧
      ClaimedAt deploymentSettings world.db place "worker" now run := by
  have ran : ((opsSystem deploymentSettings (· = OpsStore.empty)).exec freshWorld claiming).any
      (fun world => world.db.txns[1]?.any hasClaimed) = true := by
    decide +kernel
  obtain ⟨world, done, claimed⟩ := (Option.any_eq_true _ _).mp ran
  have reached : (opsSystem deploymentSettings (· = OpsStore.empty)).Reachable world :=
    ⟨freshWorld, ⟨0, _, rfl, rfl⟩, System.leads_of_exec done⟩
  obtain ⟨skipped, run, answered⟩ := answered_of_hasClaimed claimed
  obtain ⟨place, now, -, -, -, -, all, -⟩ :=
    claim_all_or_nothing deploymentSettings reached answered
  exact ⟨world, place, now, run, done, all run rfl⟩

end OpsComposer.Coordination
