import OpsComposer.Coordination.Logs
import OpsComposer.Coordination.Tickets
import OpsComposer.Foundations.CallOrder
import OpsComposer.Foundations.RowGuards

/-!
# The capacity for web shells

A call that opens a session takes the admission lock, deletes the sessions that have expired at
its clock, and counts the others.  It may count with a clock that it has read long before: what
makes the count right is that no session has its lease shortened, so that what has expired once
is not counted again, and that nobody else adds a session in the meantime.

Leases are not shortened because the calls of one owner for one session come one after the
other (`webShellOrder`), as the manager makes them: it claims the session when it has been
opened, and each heartbeat when the last one has returned.  Then there are never more sessions
than the capacity, in any committed state (`sessions_within_capacity`).
-/

set_option autoImplicit false

namespace OpsComposer.Coordination

open Domain Foundations Repositories Services
open RowStore
open WebShellRepository (Expired)

/-! ## The order of the calls -/

/-- A session is claimed when it has been opened, and its owner sends one heartbeat after the
other when it has claimed it. -/
def webShellOrder : CallOrder OpsCall where
  waits first second :=
    match first, second with
    | .createShell id _ _ _ _, .claimShell id' _ _ _ => id = id'
    | .createShell id _ _ _ _, .heartbeatShell id' _ _ => id = id'
    | .claimShell id _ ownerId _, .heartbeatShell id' ownerId' _ => id = id' ∧ ownerId = ownerId'
    | .heartbeatShell id ownerId _, .heartbeatShell id' ownerId' _ =>
        id = id' ∧ ownerId = ownerId'
    | _, _ => False
  late first second :=
    match first, second with
    | .createShell id _ _ _ _, .createShell id' _ _ _ _ => id = id'
    | .claimShell id _ _ _, .createShell id' _ _ _ _ => id = id'
    | .heartbeatShell id _ _, .createShell id' _ _ _ _ => id = id'
    | .heartbeatShell id ownerId _, .claimShell id' _ ownerId' _ => id = id' ∧ ownerId = ownerId'
    | _, _ => False

/-- The calls come in as the manager makes them. -/
def Orderly (world : OpsWorld) : DbAct OpsCall → Prop
  | .onDb (.begin call) => webShellOrder.Admits world.db call
  | _ => True

instance (first second : OpsCall) : Decidable (webShellOrder.waits first second) := by
  unfold webShellOrder
  dsimp only
  split <;> infer_instance

instance (first second : OpsCall) : Decidable (webShellOrder.late first second) := by
  unfold webShellOrder
  dsimp only
  split <;> infer_instance

instance (world : OpsWorld) : (act : DbAct OpsCall) → Decidable (Orderly world act)
  | .onDb (.begin call) =>
      inferInstanceAs (Decidable (∀ txn ∈ world.db.txns, ¬ webShellOrder.late txn.call call ∧
        (webShellOrder.waits txn.call call → txn.live = false)))
  | .onDb (.clock _ _) | .onDb (.snapshot _) | .onDb (.perform _) | .onDb (.check _)
  | .onDb (.commit _) | .onDb (.abort _) | .tick _ => .isTrue trivial

/-- Sessions draw their identifiers afresh. -/
theorem Orderly.drawsFresh {world : OpsWorld} {act : DbAct OpsCall} (orderly : Orderly world act) :
    DrawsFresh world act := by
  cases act with
  | tick elapsed => trivial
  | onDb action =>
      cases action with
      | begin call =>
          intro id opens txn member same
          obtain ⟨early, -⟩ := orderly txn member
          cases call <;> cases opens
          cases isCall : txn.call <;> rw [isCall] at same early <;> cases same
          exact early rfl
      | _ => trivial

/-! ## Leases -/

/-- Until when a session counts. -/
def expiry (session : WebShellSession) : Nat :=
  if session.state = .pending then session.ticketExpiresAt else session.leaseExpiresAt

variable {session : WebShellSession}

theorem expired_iff {now : Nat} : Expired now session ↔ expiry session ≤ now := by
  by_cases pending : session.state = .pending <;> simp [Expired, expiry, pending]

theorem expiry_of_settled (settled : session.state ≠ .pending) :
    expiry session = session.leaseExpiresAt := if_neg settled

theorem expiry_renewed (settled : session.state ≠ .pending)
    {expiresAt : Nat} {lastActivityAt : Option Nat} :
    expiry { session with leaseExpiresAt := expiresAt, lastActivityAt := lastActivityAt } =
      expiresAt := if_neg settled

/-- The call gives the session its lease. -/
def LeasesBy : OpsCall → WebShellSession → Prop
  | .createShell id _ _ _ _, session => id = session.webShellSessionId ∧ session.state = .pending
  | .claimShell id _ ownerId _, session =>
      id = session.webShellSessionId ∧ session.state ≠ .pending ∧ session.ownerId = some ownerId
  | .heartbeatShell id ownerId _, session =>
      id = session.webShellSessionId ∧ session.state ≠ .pending ∧ session.ownerId = some ownerId
  | _, _ => False

/-- One of the commits up to there has given the session its lease, from its clock on. -/
def LeasedBefore (db : OpsDb) (n : Nat) (session : WebShellSession) : Prop :=
  ∃ (place index : Nat) (txn : OpsTxn) (now : Nat), place < n ∧ db.history[place]? = some index ∧
    db.txns[index]? = some txn ∧ .clock now ∈ txn.log ∧ LeasesBy txn.call session ∧
      expiry session = now + seconds WebShellService.leaseSeconds

/-- A session that follows another one: its lease does not end before, and its owner stays. -/
structure Extends (old new : WebShellSession) : Prop where
  later : expiry old ≤ expiry new
  pending : new.state = .pending → new = old
  owner : old.state ≠ .pending → new.ownerId = old.ownerId

namespace Extends

variable {first second third : WebShellSession}

theorem refl (session : WebShellSession) : Extends session session :=
  ⟨le_rfl, fun _ => rfl, fun _ => rfl⟩

theorem trans (before : Extends first second) (after : Extends second third) :
    Extends first third where
  later := before.later.trans after.later
  pending isPending := by
    obtain rfl := after.pending isPending
    exact before.pending isPending
  owner settled := by
    have still : second.state ≠ .pending := by
      intro isPending
      obtain rfl := before.pending isPending
      exact settled isPending
    exact (after.owner still).trans (before.owner settled)

end Extends

section Runs

variable {settings : OpsSettings} {db : OpsDb}

variable {answer : OpsAnswer} {session : WebShellSession}

theorem LeasedBefore.later {n m : Nat}
    (leased : LeasedBefore db n session) (le : n ≤ m) : LeasedBefore db m session := by
  obtain ⟨place, index, txn, now, before, rest⟩ := leased
  exact ⟨place, index, txn, now, before.trans_le le, rest⟩

/-- The call of a commit gives a session its lease. -/
theorem OpsCommit.leases {place index : Nat} {txn : OpsTxn}
    (committed : OpsCommit settings db place index txn answer)
    {now : Nat} (read : .clock now ∈ txn.log) (leases : LeasesBy txn.call session)
    (expires : expiry session = now + seconds WebShellService.leaseSeconds) :
    LeasedBefore db (place + 1) session :=
  ⟨place, index, txn, now, Nat.lt_succ_self place, committed.next, committed.found, read, leases,
    expires⟩

/-- A turn gives the session a lease of the call, or leaves the one that it had. -/
theorem OpsCommit.leases_turn {place index : Nat} {txn : OpsTxn}
    (committed : OpsCommit settings db place index txn answer) {statement : OpsStatement}
    {shown : List OpsRow} {seen : Nat} (ran : .ran statement shown seen ∈ txn.log)
    {snapshot : OpsStore} {old new : WebShellSession}
    (turn : SessionTurn snapshot statement old new) (leased : LeasedBefore db (place + 1) old) :
    LeasedBefore db (place + 1) new := by
  have issued := issued_of_outcome committed.outcome ran
  cases turn with
  | held => exact leased
  | activated activatable =>
      obtain ⟨principal, launchable, call, -, read, rfl⟩ := issued
      refine committed.leases read ?_ rfl
      rw [call]
      exact ⟨activatable.1.symm, by simp [WebShellRepository.activated], rfl⟩
  | beaten refreshable =>
      obtain ⟨call, read, rfl⟩ := issued
      obtain ⟨named, owned, active, -⟩ := refreshable
      have settled : old.state ≠ .pending := by simp [active]
      refine committed.leases read ?_ (expiry_of_settled settled)
      rw [call]
      exact ⟨named.symm, settled, owned⟩
  | closing closable =>
      obtain ⟨place', index', txn', now, before, next, found, read, leases, expires⟩ := leased
      obtain ⟨-, -, active⟩ := closable
      have settled : old.state ≠ .pending := by simp [active]
      rw [expiry_of_settled settled] at expires
      refine ⟨place', index', txn', now, before, next, found, read, ?_, expires⟩
      cases isCall : txn'.call <;> rw [isCall] at leases <;> first
        | exact leases.elim
        | exact ⟨leases.1, by simp, leases.2.2⟩
        | exact absurd leases.2 settled

/-- **Every lease** has been given by an earlier commit. -/
theorem Placed.leased_before (placed : Placed settings db) {n : Nat} (bound : n ≤ db.history.length)
    {webShellSessionId : Uuid}
    (found : lookup (committedAt db n) (OpsKey.shell webShellSessionId) = some (.shell session)) :
    LeasedBefore db n session := by
  induction n generalizing session with
  | zero =>
      rw [committedAt, Db.stateAt_zero, lookup_empty] at found
      cases found
  | succ n ih =>
      obtain ⟨index, txn, answer, committed⟩ := placed.account.commit (Nat.lt_of_succ_le bound)
      refine committed.keeps (P := fun row? => ∀ session, row? = some (.shell session) →
        LeasedBefore db (n + 1) session) ?_ ?_ session found
      · rintro statement shown seen ran snapshot old? new? - - change keeps session rfl
        rcases session_of_changes change with ⟨-, rfl⟩ | ⟨old, rfl, turn⟩
        · obtain ⟨id, hostId, principal, instanceId, reading, target, now, call, read, rfl⟩ :=
            issued_of_outcome committed.outcome ran
          exact OpsCommit.leases committed read (by rw [call]; exact ⟨rfl, rfl⟩) rfl
        · exact OpsCommit.leases_turn committed ran turn (keeps old rfl)
      · exact fun session found =>
          (ih (Nat.le_of_succ_le bound) found).later (Nat.le_succ n)

/-! ## No session has its lease shortened -/

/-- A heartbeat reads the clock once. -/
theorem clock_of_beat {webShellSessionId : Uuid} {ownerId : String} {lastActivityAt : Nat}
    {log : List OpsEvent} {now now' : Nat}
    (outcome : Outcome settings (.heartbeatShell webShellSessionId ownerId lastActivityAt) answer
      log) (read : .clock now ∈ log) (read' : .clock now' ∈ log) : now = now' := by
  cases outcome with
  | plain isPlain only => cases isPlain
  | beaten =>
      simp only [List.mem_cons, Event.clock.injEq, reduceCtorEq, List.not_mem_nil, or_false]
        at read read'
      exact read.trans read'.symm

section Turns

variable {place index place' index' now now' : Nat} {txn txn' : OpsTxn} {answer : OpsAnswer}
  (committed : OpsCommit settings db place index txn answer)
  (inTurn : Db.InTurn webShellOrder db) {session : WebShellSession} (le : place' ≤ place)
  (next : db.history[place']? = some index') (found : db.txns[index']? = some txn')
  (read : .clock now ∈ txn.log) (read' : .clock now' ∈ txn'.log)
  (leases : LeasesBy txn'.call session)
include committed inTurn le next found read read' leases

/-- The call that has opened a session has read its clock before the claim. -/
theorem clock_le_of_claim {principal : Principal} {ownerId : String} {launchable : Bool}
    (call : txn.call = .claimShell session.webShellSessionId principal ownerId launchable)
    (pending : session.state = .pending) : now' ≤ now := by
  refine inTurn.clock_le found committed.found next committed.next le ?_ ?_ ?_ read' read
  · rintro rfl
    obtain rfl := Option.some.inj (found.symm.trans committed.found)
    rw [call] at leases
    exact leases.2.1 pending
  all_goals
    rw [call]
    cases isCall : txn'.call <;> rw [isCall] at leases <;> first
      | exact leases.elim
      | exact absurd pending leases.2.1
      | skip
  · exact leases.1
  · exact .inl leases.1.symm

/-- The calls of an owner before a heartbeat have read their clocks before it. -/
theorem clock_le_of_beat {ownerId : String} {lastActivityAt : Nat}
    (call : txn.call = .heartbeatShell session.webShellSessionId ownerId lastActivityAt)
    (settled : session.state ≠ .pending) (owned : session.ownerId = some ownerId) : now' ≤ now := by
  by_cases same : index' = index
  · subst same
    obtain rfl := Option.some.inj (found.symm.trans committed.found)
    have outcome := committed.outcome
    rw [call] at outcome
    exact (clock_of_beat outcome read' read).le
  · have isOwner : ∀ other, session.ownerId = some other → other = ownerId :=
      fun other isOther => Option.some.inj (isOther.symm.trans owned)
    refine inTurn.clock_le found committed.found next committed.next le same ?_ ?_ read' read
    all_goals
      rw [call]
      cases isCall : txn'.call <;> rw [isCall] at leases <;> first
        | exact leases.elim
        | exact absurd leases.2 settled
        | skip
    · exact ⟨leases.1, isOwner _ leases.2.2⟩
    · exact ⟨leases.1, isOwner _ leases.2.2⟩
    · exact .inl ⟨leases.1.symm, (isOwner _ leases.2.2).symm⟩
    · exact .inr ⟨leases.1.symm, (isOwner _ leases.2.2).symm⟩

end Turns

variable {shown : List OpsRow} {snapshot : OpsStore} {webShellSessionId : Uuid}
  {new old : WebShellSession}

/-- A turn extends the session. -/
theorem OpsCommit.extends_turn {place index : Nat} {txn : OpsTxn} {answer : OpsAnswer}
    (committed : OpsCommit settings db place index txn answer) (inTurn : Db.InTurn webShellOrder db)
    {statement : OpsStatement} {seen : Nat} (ran : .ran statement shown seen ∈ txn.log)
    (turn : SessionTurn snapshot statement old new) (leased : LeasedBefore db (place + 1) old) :
    Extends old new := by
  have issued := issued_of_outcome committed.outcome ran
  obtain ⟨place', index', txn', now', before, next, found, read', leases, expires⟩ := leased
  have le := Nat.le_of_lt_succ before
  cases turn with
  | held => exact .refl _
  | activated activatable =>
      obtain ⟨principal, launchable, call, -, read, rfl⟩ := issued
      obtain ⟨named, -, pending, -⟩ := activatable
      rw [← named] at call
      refine ⟨?_, fun isPending => ?_, fun settled => absurd pending settled⟩
      · rw [expires]
        exact Nat.add_le_add_right
          (clock_le_of_claim committed inTurn le next found read read' leases call pending) _
      · simp [WebShellRepository.activated] at isPending
  | beaten refreshable =>
      obtain ⟨call, read, rfl⟩ := issued
      obtain ⟨named, owned, active, -⟩ := refreshable
      have settled : old.state ≠ .pending := by simp [active]
      rw [← named] at call
      refine ⟨?_, fun isPending => absurd isPending settled, fun _ => rfl⟩
      rw [expires]
      have later := clock_le_of_beat committed inTurn le next found read read' leases call settled
        owned
      exact (Nat.add_le_add_right later _).trans (expiry_renewed settled).ge
  | closing closable =>
      obtain ⟨-, -, active⟩ := closable
      have settled : old.state ≠ .pending := by simp [active]
      refine ⟨?_, fun isPending => absurd isPending (by simp), fun _ => rfl⟩
      rw [expiry_of_settled settled]
      exact le_rfl

/-- **A commit** extends the sessions that it changes. -/
theorem OpsCommit.extends {place index : Nat} {txn : OpsTxn} {answer : OpsAnswer}
    (committed : OpsCommit settings db place index txn answer) (placed : Placed settings db)
    (inTurn : Db.InTurn webShellOrder db)
    (before : lookup (committedAt db place) (OpsKey.shell webShellSessionId) = some (.shell old))
    (after : lookup (committedAt db (place + 1)) (OpsKey.shell webShellSessionId) =
      some (.shell new)) : Extends old new := by
  have bound : place < db.history.length := (List.getElem?_eq_some_iff.mp committed.next).1
  -- along the statements of the log, with the lease of what there is in between
  refine (committed.keeps (P := fun row? => ∀ session, row? = some (.shell session) →
    Extends old session ∧ LeasedBefore db (place + 1) session) ?_ ?_ new after).1
  · rintro statement shown seen ran snapshot old? new? - isNew change keeps session rfl
    rcases session_of_changes change with ⟨-, rfl⟩ | ⟨middle, rfl, turn⟩
    · obtain ⟨opening, index', txn', answer', hostId, principal, instanceId, reading, earlier,
        committed', call⟩ := placed.exists_opening bound.le before
      have named : session.webShellSessionId = webShellSessionId := OpsKey.shell.inj (isNew _ rfl)
      have again := OpsCommit.openedAt committed ran
      rw [named] at again
      have opened : OpenedAt db opening webShellSessionId :=
        ⟨index', txn', committed'.next, committed'.found, by rw [call]; rfl⟩
      exact absurd (placed.opened_once opened again) (Nat.ne_of_lt earlier)
    · obtain ⟨sofar, leased⟩ := keeps middle rfl
      exact ⟨sofar.trans (OpsCommit.extends_turn committed inTurn ran turn leased),
        OpsCommit.leases_turn committed ran turn leased⟩
  · intro session found
    obtain rfl := OpsRow.shell.inj (Option.some.inj (before.symm.trans found))
    exact ⟨.refl _, (placed.leased_before bound.le before).later (Nat.le_succ place)⟩

/-- A session that is there has been there since it was opened. -/
theorem Placed.exists_between (placed : Placed settings db)
    {opening n m : Nat} (opened : OpenedAt db opening webShellSessionId) (after : opening < n)
    (le : n ≤ m) (bound : m ≤ db.history.length) {session : WebShellSession}
    (found : lookup (committedAt db m) (OpsKey.shell webShellSessionId) = some (.shell session)) :
    ∃ old, lookup (committedAt db n) (OpsKey.shell webShellSessionId) = some (.shell old) := by
  by_contra none
  exact placed.session_later opened after le bound (P := fun _ => False) (fun _ _ _ _ _ => id)
    (fun old isThere => none ⟨old, isThere⟩) session found

/-- **From one committed state to a later one** a session is extended. -/
theorem Placed.extends (placed : Placed settings db) (inTurn : Db.InTurn webShellOrder db)
    {opening n m : Nat} (opened : OpenedAt db opening webShellSessionId) (after : opening < n)
    (le : n ≤ m) (bound : m ≤ db.history.length)
    (before : lookup (committedAt db n) (OpsKey.shell webShellSessionId) = some (.shell old))
    (found : lookup (committedAt db m) (OpsKey.shell webShellSessionId) = some (.shell new)) :
    Extends old new := by
  induction m, le using Nat.le_induction generalizing new with
  | base =>
      obtain rfl := OpsRow.shell.inj (Option.some.inj (before.symm.trans found))
      exact .refl _
  | succ m le ih =>
      obtain ⟨middle, isThere⟩ := placed.exists_between opened (after.trans_le le) (Nat.le_succ m)
        bound found
      obtain ⟨index, txn, answer, committed⟩ := placed.account.commit (Nat.lt_of_succ_le bound)
      exact (ih (Nat.le_of_succ_le bound) isThere).trans
        (OpsCommit.extends committed placed inTurn isThere found)

/-! ## Counting -/

/-- Deleting the sessions that have expired. -/
theorem erased_of_expired {clash : OpsRow → OpsRow → Bool} {current : OpsStore}
    {writes : List (Write OpsKey OpsRow)} {now : Nat}
    (done : ((OpsStatement.cleanupExpired now).meaning snapshot).perform clash snapshot current =
      some (shown, writes))
    (before : lookup snapshot (OpsKey.shell webShellSessionId) = some (.shell old))
    (found : lookup current (OpsKey.shell webShellSessionId) = some (.shell new))
    (expired : Expired now old) (expired' : Expired now new) :
    ∃ row ∈ shown, row.key = .shell webShellSessionId := by
  obtain ⟨rfl, -⟩ := Command.perform_rewrite done
  refine ⟨.shell new, List.mem_map.mpr ⟨(.shell new, none), ?_, rfl⟩, key_of_lookup found⟩
  refine Command.mem_changed.mpr ⟨mem_of_lookup found, ?_, ?_⟩
  · refine List.mem_map.mpr ⟨.shell old, List.mem_filter.mpr ⟨mem_of_lookup before, ?_⟩,
      (key_of_lookup before).trans (key_of_lookup found).symm⟩
    simp [OpsStatement.dropped, expired]
  · simp only [OpsStatement.dropped]
    exact if_pos (decide_eq_true expired')

/-- Taking the admission lock writes its row. -/
theorem admission_of_acquired {clash : OpsRow → OpsRow → Bool} {current : OpsStore}
    {writes : List (Write OpsKey OpsRow)}
    (done : (OpsStatement.acquireAdmissionLock.meaning snapshot).perform clash snapshot current =
      some (shown, writes)) : shown = [.admission] := by
  rcases Command.perform_upsert done with ⟨-, rfl, -⟩ | ⟨old, found, rfl, -⟩
  · rfl
  · rw [admission_of_key (key_of_lookup found)]
    rfl

end Runs

section Runs

variable {settings : OpsSettings} {db : OpsDb}

variable {index place : Nat} {answer : OpsAnswer} {txn : OpsTxn} {webShellSessionId : Uuid}
  {session : WebShellSession}

/-- The commits that open sessions write the admission lock. -/
theorem OpsCommit.admission {hostId : Uuid} {principal : Principal} {instanceId : String}
    {reading : WebShellService.HostReading}
    (committed : OpsCommit settings db place index txn answer) (account : OpsAccount settings db)
    (call : txn.call = .createShell webShellSessionId hostId principal instanceId reading) :
    .admission ∈ touched OpsStore (db.writesAt index) := by
  have outcome := committed.outcome
  rw [call] at outcome
  rw [Db.writesAt_of_found committed.found, account.chronicle.writes index txn committed.found]
  generalize log : txn.log = events at outcome
  cases outcome with
  | plain isPlain only => cases isPlain
  | @opened _ _ _ _ _ target now s s' s'' t t' rows =>
      obtain ⟨n, -, ran, -⟩ := account.chronicle.ran_of_committed committed.next committed.found
        committed.done (show txn.log = [.clock now] ++ .ran _ _ _ :: _ from log)
      obtain rfl := admission_of_acquired ran.performed
      exact List.mem_cons_self

/-- The sessions that there are. -/
abbrev sessionsAt (db : OpsDb) (n : Nat) : List WebShellSession := (committedAt db n).shells.rows

theorem mem_sessionsAt {n : Nat} :
    session ∈ sessionsAt db n ↔
      lookup (committedAt db n) (OpsKey.shell session.webShellSessionId) = some (.shell session) :=
  Table.mem_rows_iff.trans lookup_shell.symm

/-- What has been opened under a lock that the others wait for was there when it was taken. -/
theorem OpsCommit.opened_before {seen : Nat}
    (committed : OpsCommit settings db place index txn answer) (placed : Placed settings db)
    (alone : db.Alone index seen .admission)
    (found : lookup (committedAt db place) (OpsKey.shell webShellSessionId) =
      some (.shell session)) :
    ∃ opening, opening < seen ∧ OpenedAt db opening webShellSessionId := by
  have bound : place < db.history.length := (List.getElem?_eq_some_iff.mp committed.next).1
  obtain ⟨opening, index', txn', answer', hostId, principal, instanceId, reading, earlier,
    committed', call⟩ := placed.exists_opening bound.le found
  refine ⟨opening, Nat.lt_of_not_le fun later => ?_, index', txn', committed'.next,
    committed'.found, by rw [call]; rfl⟩
  refine alone opening index' later ?_ committed'.next
    (OpsCommit.admission committed' placed.account call)
  rw [placed.account.chronicle.place_of_history committed.next]
  exact earlier

/-- A session that a call leaves beside its own, it has counted. -/
theorem OpsCommit.counts {now taken s s' : Nat}
    {gone live : List OpsRow} {later : List OpsEvent}
    (committed : OpsCommit settings db place index txn answer) (placed : Placed settings db)
    (inTurn : Db.InTurn webShellOrder db) (guarded : Db.Guarded OpsStatement.effects db)
    (log : txn.log = [.clock now, .ran .acquireAdmissionLock [.admission] taken] ++
      .ran (.cleanupExpired now) gone s :: .ran (.countLive now) live s' :: later)
    (isThere : session ∈ sessionsAt db place)
    (stays : ∀ row ∈ gone, row.key ≠ .shell session.webShellSessionId) :
    ∃ counted, .shell counted ∈ live ∧
      counted.webShellSessionId = session.webShellSessionId := by
  have chronicle := placed.account.chronicle
  have bound : place < db.history.length := (List.getElem?_eq_some_iff.mp committed.next).1
  have unfinished : txn.status ≠ .aborted := by simp [committed.done]
  have found := mem_sessionsAt.mp isThere
  have log' : txn.log = [.clock now, .ran .acquireAdmissionLock [.admission] taken,
      .ran (.cleanupExpired now) gone s] ++ .ran (.countLive now) live s' :: later := log
  obtain ⟨n, ran, after⟩ := chronicle.ran index txn committed.found _ _ _ _ _ log
  obtain ⟨n', le', ran', -⟩ :=
    chronicle.ran_of_committed committed.next committed.found committed.done log'
  have ordered : n ≤ s' := after.ordered _ _ _ List.mem_cons_self
  have upTo : s' ≤ place := ran'.le.trans le'
  have alone : db.Alone index s .admission :=
    (guarded index txn committed.found unfinished).ran _ _ _ _ _ log _ List.mem_cons_self
  obtain ⟨opening, earlier, opened⟩ := OpsCommit.opened_before committed placed alone found
  -- the session when the expired ones are looked for, when they are deleted, and when it is counted
  obtain ⟨first, isFirst⟩ := placed.exists_between opened earlier
    ((ran.le.trans ordered).trans upTo) bound.le found
  obtain ⟨second, isSecond⟩ := placed.exists_between opened (earlier.trans_le ran.le)
    (ordered.trans upTo) bound.le found
  obtain ⟨third, isThird⟩ := placed.exists_between opened (earlier.trans_le (ran.le.trans ordered))
    upTo bound.le found
  have isBefore := placed.extends inTurn opened earlier ran.le ran.bound isFirst isSecond
  have isAfter := placed.extends inTurn opened (earlier.trans_le ran.le) ordered
    (upTo.trans bound.le) isSecond isThird
  have unexpired : ¬ Expired now third := by
    rw [expired_iff]
    intro expired
    have expired' := isAfter.later.trans expired
    have free : OpsKey.shell session.webShellSessionId ∉ touched OpsStore
        (logged OpsStatement.effects
          [.clock now, .ran .acquireAdmissionLock [.admission] taken]) := by
      simp [touched, written, key, OpsRow.key, OpsStatement.effects]
    obtain ⟨row, member, same⟩ := erased_of_expired ran.performed
      ((lookup_applyAll_of_not_mem _ free).trans isFirst)
      ((lookup_applyAll_of_not_mem _ free).trans isSecond)
      (expired_iff.mpr (isBefore.later.trans expired')) (expired_iff.mpr expired')
    exact stays row member same
  have named : third.webShellSessionId = session.webShellSessionId :=
    OpsKey.shell.inj (key_of_lookup isThird)
  refine ⟨third, ?_, named⟩
  rw [← (Prod.mk.inj (Option.some.inj ran'.performed)).1]
  refine List.mem_map.mpr ⟨third, Table.mem_select.mpr ⟨lookup_shell.mp ?_, unexpired⟩, rfl⟩
  rw [named]
  refine (lookup_applyAll_of_not_mem _ ?_).trans isThird
  simp only [logged_clock, logged_ran, logged_nil, List.append_nil, OpsStatement.effects,
    touched_append, List.mem_append, not_or]
  refine ⟨by simp [touched, written, key, OpsRow.key], fun isTouched => ?_⟩
  obtain ⟨write, isWrite, same⟩ := mem_touched.mp isTouched
  obtain ⟨row, member, rfl⟩ := List.mem_map.mp isWrite
  exact stays row member same

/-- **A call that opens a session** leaves no more than its capacity. -/
theorem OpsCommit.opens_within {hostId : Uuid} {principal : Principal} {instanceId : String}
    {reading : WebShellService.HostReading}
    (committed : OpsCommit settings db place index txn answer) (placed : Placed settings db)
    (inTurn : Db.InTurn webShellOrder db) (guarded : Db.Guarded OpsStatement.effects db)
    (call : txn.call = .createShell webShellSessionId hostId principal instanceId reading) :
    (sessionsAt db (place + 1)).length ≤ settings.webShellMaxSessions := by
  have chronicle := placed.account.chronicle
  have outcome := committed.outcome
  rw [call] at outcome
  generalize log : txn.log = events at outcome
  cases outcome with
  | plain isPlain only => cases isPlain
  | @opened _ _ _ _ _ target now s₀ s s' t t' rows gone live added taken session permitted capacity
      enabled isTarget hasKeys isAdded acquired =>
      have ran := fun {earlier later : List OpsEvent} {statement : OpsStatement}
          {shown : List OpsRow} {seen : Nat}
          (split : txn.log = earlier ++ .ran statement shown seen :: later) =>
        chronicle.ran_of_committed committed.next committed.found committed.done split
      obtain ⟨n, -, acquires, -⟩ := ran (show txn.log = [.clock now] ++ .ran _ _ _ :: _ from log)
      obtain rfl := admission_of_acquired acquires.performed
      obtain ⟨n', -, adds, -⟩ := ran (show txn.log = [_, _, _, _] ++ .ran _ _ _ :: _ from log)
      obtain ⟨-, ⟨-, wrong, -⟩ | ⟨-, rfl, -⟩⟩ := Command.perform_insert adds.performed
      · cases wrong
      obtain ⟨n'', -, locks, -⟩ := ran (show txn.log = [_, _, _, _, _] ++ .ran _ _ _ :: _ from log)
      rcases perform_lockHost locks.performed with ⟨rfl, -⟩ | ⟨rfl, -⟩
      swap
      · exact absurd rfl acquired
      -- the sessions that are left are the new one and some that have been counted
      have left : (sessionsAt db (place + 1)).map WebShellSession.webShellSessionId ⊆
          webShellSessionId ::
            (live.filterMap OpsRow.shells.unwrap).map WebShellSession.webShellSessionId := by
        intro id member
        obtain ⟨session, isThere, rfl⟩ := List.mem_map.mp member
        have after := mem_sessionsAt.mp isThere
        rw [committedAt, committed.after, log] at after
        simp only [logged_clock, logged_ran, logged_nil, OpsStatement.effects] at after
        rcases lookup_applyAll_cases after with ⟨free, before⟩ | ⟨-, isPut⟩
        · refine List.mem_cons_of_mem _ ?_
          have stays : ∀ row ∈ gone, row.key ≠ .shell session.webShellSessionId := by
            intro row isGone same
            refine free (mem_touched.mpr ⟨.erase row.key, ?_, same⟩)
            simp only [List.mem_append]
            exact .inr (.inl (List.mem_map_of_mem isGone))
          obtain ⟨counted, isLive, same⟩ :=
            OpsCommit.counts committed placed inTurn guarded log (mem_sessionsAt.mpr before) stays
          exact List.mem_map.mpr ⟨counted, List.mem_filterMap.mpr ⟨_, isLive, rfl⟩, same⟩
        · simp only [List.mem_append, List.mem_map, List.map_cons, List.map_nil, List.mem_cons,
            List.not_mem_nil, or_false, reduceCtorEq, and_false, exists_false, false_or,
            Write.put.injEq, OpsRow.shell.injEq] at isPut
          obtain rfl := isPut
          exact List.mem_cons_self
      have atMost :=
        (List.subperm_of_subset (committedAt db (place + 1)).shells.unique left).length_le
      rw [List.length_map, List.length_cons, List.length_map] at atMost
      exact atMost.trans capacity

/-- **No other commit** adds a session. -/
theorem OpsCommit.adds_none (committed : OpsCommit settings db place index txn answer)
    (placed : Placed settings db) (other : opens? txn.call = none) :
    (sessionsAt db (place + 1)).length ≤ (sessionsAt db place).length := by
  have bound : place + 1 ≤ db.history.length := (List.getElem?_eq_some_iff.mp committed.next).1
  have among : (sessionsAt db (place + 1)).map WebShellSession.webShellSessionId ⊆
      (sessionsAt db place).map WebShellSession.webShellSessionId := by
    intro id member
    obtain ⟨session, isThere, rfl⟩ := List.mem_map.mp member
    have found := mem_sessionsAt.mp isThere
    obtain ⟨opening, index', txn', answer', hostId, principal, instanceId, reading, earlier,
      committed', call⟩ := placed.exists_opening bound found
    have opens : opens? txn'.call = some session.webShellSessionId := by
      rw [call]
      rfl
    have before : opening < place := by
      refine Nat.lt_of_le_of_ne (Nat.le_of_lt_succ earlier) ?_
      rintro rfl
      obtain rfl := Option.some.inj (committed'.next.symm.trans committed.next)
      obtain rfl := Option.some.inj (committed'.found.symm.trans committed.found)
      rw [other] at opens
      cases opens
    have opened : OpenedAt db opening session.webShellSessionId :=
      ⟨index', txn', committed'.next, committed'.found, opens⟩
    obtain ⟨old, wasThere⟩ := placed.exists_between opened before (Nat.le_succ place) bound found
    have same : old.webShellSessionId = session.webShellSessionId :=
      OpsKey.shell.inj (key_of_lookup wasThere)
    exact List.mem_map.mpr ⟨old, mem_sessionsAt.mpr (same ▸ wasThere), same⟩
  have atMost := (List.subperm_of_subset (committedAt db (place + 1)).shells.unique among).length_le
  rw [List.length_map, List.length_map] at atMost
  exact atMost

/-- **There are never more sessions than their capacity**, pending, active or closing, expired or
not, in any committed state. -/
theorem sessions_within_capacity (settings : OpsSettings) {world : OpsWorld}
    (reached : ((opsSystem settings (· = OpsStore.empty)).restrict Orderly).Reachable world)
    {n : Nat} (bound : n ≤ world.db.history.length) :
    (sessionsAt world.db n).length ≤ settings.webShellMaxSessions := by
  have placed := (placed_inductive settings).of_reachable
    (reached.weaken fun _ _ => Orderly.drawsFresh)
  have guarded : Db.Guarded OpsStatement.effects world.db :=
    ((Service.inductive_guarded tellable (fun _ _ _ _ _ _ => trivial) ends_program).of_reachable
      reached).2
  have inTurn : Db.InTurn webShellOrder world.db :=
    ((Service.inductive_ordered fun _ _ allowed => allowed).of_reachable reached).inTurn
  induction n with
  | zero => exact Nat.zero_le _
  | succ n ih =>
      obtain ⟨index, txn, answer, committed⟩ := placed.account.commit (Nat.lt_of_succ_le bound)
      cases opens : opens? txn.call with
      | none =>
          exact (OpsCommit.adds_none committed placed opens).trans (ih (Nat.le_of_succ_le bound))
      | some webShellSessionId =>
          cases call : txn.call <;> rw [call] at opens <;> cases opens
          exact OpsCommit.opens_within committed placed inTurn guarded call

end Runs

/-- It holds after a session has been opened and claimed. -/
theorem sessions_within_capacity_opened : ∃ world : OpsWorld,
    (opsSystem deploymentSettings (· = OpsStore.empty)).exec freshWorld launching = some world ∧
      3 ≤ world.db.history.length ∧ (sessionsAt world.db 3).length ≤
        deploymentSettings.webShellMaxSessions := by
  have ran : ((opsSystem deploymentSettings (· = OpsStore.empty)).exec freshWorld launching).any
      (fun world => decide (3 ≤ world.db.history.length)) = true := by
    decide +kernel
  have along : (opsSystem deploymentSettings (· = OpsStore.empty)).Along Orderly freshWorld
      launching := by
    decide +kernel
  obtain ⟨world, done, longer⟩ := (Option.any_eq_true _ _).mp ran
  have reached : ((opsSystem deploymentSettings (· = OpsStore.empty)).restrict Orderly).Reachable
      world := ⟨freshWorld, ⟨0, _, rfl, rfl⟩, System.leads_restrict_of_exec done along⟩
  have bound := of_decide_eq_true longer
  exact ⟨world, done, bound, sessions_within_capacity deploymentSettings reached bound⟩

end OpsComposer.Coordination
