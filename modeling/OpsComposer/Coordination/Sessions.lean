import OpsComposer.Coordination.Heartbeats
import OpsComposer.Foundations.RowQueries

/-!
# The sessions of a run

The row of a web-shell session is added by the one call that opens the session, and from then
on statements turn it into new versions of itself (`SessionTurn`) or delete it.  So what every
such turn keeps holds of the session from one committed state to every later one
(`Placed.session_later`), and behind every session there is the commit that has opened it
(`Placed.exists_opening`).
-/

set_option autoImplicit false

namespace OpsComposer.Coordination

open Domain Foundations Repositories Services
open RowStore
open WebShellRepository (Activatable Refreshable Closable UnexpiredLock)

/-! ## Turns of a session -/

/-- What a statement can make of the row of a session. -/
inductive SessionTurn (snapshot : OpsStore) :
    OpsStatement → WebShellSession → WebShellSession → Prop where
  | held {webShellSessionId : Uuid} {session : WebShellSession} :
      SessionTurn snapshot (.getShell webShellSessionId true) session session
  | activated {webShellSessionId authSessionId : Uuid} {ownerId : String} {now expiresAt : Nat}
      {session : WebShellSession}
      (activatable : Activatable snapshot.toStore webShellSessionId authSessionId now session) :
      SessionTurn snapshot (.activate webShellSessionId authSessionId ownerId now expiresAt) session
        (WebShellRepository.activated ownerId now expiresAt session)
  | beaten {webShellSessionId : Uuid} {ownerId : String} {now expiresAt lastActivityAt : Nat}
      {session : WebShellSession}
      (refreshable : Refreshable snapshot.toStore webShellSessionId ownerId now session) :
      SessionTurn snapshot
        (.heartbeatShell webShellSessionId ownerId now expiresAt lastActivityAt) session
        { session with leaseExpiresAt := expiresAt, lastActivityAt := some lastActivityAt }
  | closing {webShellSessionId actorUserId : Uuid} {now : Nat} {session : WebShellSession}
      (closable : Closable webShellSessionId actorUserId session) :
      SessionTurn snapshot (.markCloseRequested webShellSessionId actorUserId now) session
        { session with state := .closeRequested, closeRequestedAt := some now }

/-- **The row of a session** is added, or it is a turn of what was there. -/
theorem session_of_changes {statement : OpsStatement} {snapshot : OpsStore}
    {before : Option OpsRow} {session : WebShellSession}
    (change : Command.Changes (statement.meaning snapshot) before (some (.shell session))) :
    (before = none ∧ statement = .addShell session) ∨
      ∃ old, before = some (.shell old) ∧ SessionTurn snapshot statement old session := by
  have touches := touches_of_changes change
  generalize isAfter : some (OpsRow.shell session) = after at touches
  cases touches with
  | shellAdded =>
      obtain rfl := OpsRow.shell.inj (Option.some.inj isAfter)
      exact .inl ⟨rfl, rfl⟩
  | shellHeld isShell =>
      obtain rfl := OpsRow.shell.inj (Option.some.inj isAfter)
      exact .inr ⟨_, rfl, .held⟩
  | activated activatable =>
      obtain rfl := OpsRow.shell.inj (Option.some.inj isAfter)
      exact .inr ⟨_, rfl, .activated activatable⟩
  | closing closable =>
      obtain rfl := OpsRow.shell.inj (Option.some.inj isAfter)
      exact .inr ⟨_, rfl, .closing closable⟩
  | @beaten _ _ _ _ _ current old after isChange =>
      subst isAfter
      cases old <;> simp only [OpsStatement.refreshed, Option.ite_none_right_eq_some,
        Option.some.injEq, reduceCtorEq, OpsRow.shell.injEq, and_false] at isChange
      obtain ⟨refreshable, rfl⟩ := isChange
      exact .inr ⟨_, rfl, .beaten refreshable⟩
  | @recovered _ current old after isChange =>
      subst isAfter
      cases old <;> simp [OpsStatement.recovered] at isChange
  | @cleaned _ current old after isChange | @shellDeleted _ _ current old after isChange =>
      subst isAfter
      cases old <;> simp [OpsStatement.dropped] at isChange
  | _ => cases isAfter

theorem shell_of_key {row : OpsRow} {id : Uuid} (key : row.key = .shell id) :
    ∃ session, row = .shell session ∧ session.webShellSessionId = id := by
  cases row <;> cases key
  exact ⟨_, rfl, rfl⟩

section Statements

variable {clash : OpsRow → OpsRow → Bool} {snapshot current : OpsStore} {shown : List OpsRow}
  {writes : List (Write OpsKey OpsRow)}

/-- A lock is taken where there is none, or an expired one. -/
theorem perform_lockHost {lock : HostLock} {now : Nat}
    (done : ((OpsStatement.lockHost lock now).meaning snapshot).perform clash snapshot current =
      some (shown, writes)) :
    (shown = [.lock lock] ∧ ∀ old, lookup current (OpsKey.lock lock.hostId) = some (.lock old) →
        old.expiresAt ≤ now) ∨
      (shown = [] ∧ ∃ old, lookup current (OpsKey.lock lock.hostId) = some (.lock old) ∧
        now < old.expiresAt) := by
  rcases Command.perform_upsertIf done with
    ⟨free, rfl, -⟩ | ⟨row, taken, ⟨holds, rfl, -⟩ | ⟨fails, rfl, -⟩⟩
  · refine .inl ⟨rfl, fun old found => ?_⟩
    exact absurd (found.symm.trans free) (Option.some_ne_none _)
  · obtain ⟨old, rfl, expired⟩ := OpsRow.locks.meets_iff.mp holds
    have host : old.hostId = lock.hostId := OpsKey.lock.inj (key_of_lookup taken)
    refine .inl ⟨?_, fun other found => ?_⟩
    · rw [OpsRow.locks.map_wrap, host]
      rfl
    · obtain rfl := OpsRow.lock.inj (Option.some.inj (taken.symm.trans found))
      exact of_decide_eq_true expired
  · obtain ⟨old, rfl, -⟩ := lock_of_key (key_of_lookup taken)
    refine .inr ⟨rfl, old, taken, ?_⟩
    have unexpired : decide (old.expiresAt ≤ now) = false := fails
    exact Nat.not_le.mp (of_decide_eq_false unexpired)

end Statements

/-! ## Commits -/

/-- The commit after so many others is that of a call which opens the session. -/
def OpenedAt (db : OpsDb) (place : Nat) (webShellSessionId : Uuid) : Prop :=
  ∃ (id : Nat) (txn : OpsTxn), db.history[place]? = some id ∧ db.txns[id]? = some txn ∧
    opens? txn.call = some webShellSessionId

/-- The account of a run, in which nothing is taken for granted of commits. -/
abbrev OpsAccount (settings : OpsSettings) (db : OpsDb) : Prop :=
  (opsService settings).Account OpsStatement.effects (fun _ _ => True) (Outcome settings)
    (fun _ _ _ => True) OpsStore.empty db

/-- A transaction that has been committed at this place of the history, with this answer. -/
abbrev OpsCommit (settings : OpsSettings) (db : OpsDb) (place id : Nat) (txn : OpsTxn)
    (answer : OpsAnswer) : Prop :=
  (opsService settings).Committed OpsStatement.effects (Outcome settings) (fun _ _ _ => True)
    OpsStore.empty db place id txn answer

section Runs

variable {settings : OpsSettings} {db : OpsDb}

theorem Placed.account (placed : Placed settings db) : OpsAccount settings db := by
  obtain ⟨start, rfl, chronicle⟩ := placed.chronicled.chronicle
  exact ⟨chronicle, placed.chronicled.points, fun _ _ _ _ _ => trivial⟩

variable {id : Nat} {answer : OpsAnswer} {webShellSessionId : Uuid}

/-- A committed call has a place in the history. -/
theorem commit_of_answered (account : OpsAccount settings db) {call : OpsCall}
    (answered : Answered db id call answer) :
    ∃ place txn, OpsCommit settings db place id txn answer ∧ txn.call = call := by
  obtain ⟨txn, found, call, done, stands⟩ := answered
  obtain ⟨place, next⟩ := List.mem_iff_getElem?.mp ((account.chronicle.recorded.iff id).mpr
    ⟨txn, found, done⟩)
  obtain ⟨bound, -⟩ := List.getElem?_eq_some_iff.mp next
  obtain ⟨id', txn', answer', committed⟩ := account.commit bound
  obtain rfl := Option.some.inj (committed.next.symm.trans next)
  obtain rfl := Option.some.inj (committed.found.symm.trans found)
  obtain rfl := Program.done.inj (committed.stands.symm.trans stands)
  exact ⟨place, txn', committed, call⟩

/-- A session is opened in one place. -/
theorem Placed.opened_once (placed : Placed settings db) {i j : Nat}
    (opened : OpenedAt db i webShellSessionId) (opened' : OpenedAt db j webShellSessionId) :
    i = j := by
  obtain ⟨id, txn, next, found, opens⟩ := opened
  obtain ⟨id', txn', next', found', opens'⟩ := opened'
  obtain rfl := placed.alone id id' txn txn' webShellSessionId found found' opens opens'
  have chronicle := placed.account.chronicle
  exact (chronicle.place_of_history next).symm.trans (chronicle.place_of_history next')

/-- The statement that adds a session belongs to the call that opens it. -/
theorem OpsCommit.openedAt {place : Nat} {txn : OpsTxn}
    (committed : OpsCommit settings db place id txn answer) {session : WebShellSession}
    {shown : List OpsRow} {seen : Nat} (ran : .ran (.addShell session) shown seen ∈ txn.log) :
    OpenedAt db place session.webShellSessionId := by
  obtain ⟨principal, instanceId, reading, call⟩ :=
    placed_of_outcome committed.outcome _ shown seen ran
  exact ⟨id, txn, committed.next, committed.found, by rw [call]; rfl⟩

/-- **What every turn keeps** holds of a session in every later committed state. -/
theorem Placed.session_later (placed : Placed settings db)
    {opening n m : Nat} (opened : OpenedAt db opening webShellSessionId) (after : opening < n)
    (le : n ≤ m) (bound : m ≤ db.history.length) {P : WebShellSession → Prop}
    (kept : ∀ statement snapshot old new, SessionTurn snapshot statement old new → P old → P new)
    (here : ∀ session,
      lookup (committedAt db n) (OpsKey.shell webShellSessionId) = some (.shell session) →
        P session)
    (session : WebShellSession)
    (found : lookup (committedAt db m) (OpsKey.shell webShellSessionId) = some (.shell session)) :
    P session := by
  refine placed.account.induct (P := fun state => ∀ session : WebShellSession,
    lookup state (OpsKey.shell webShellSessionId) = some (.shell session) → P session) le bound here
    ?_ session found
  intro i id txn answer above below committed before
  rw [← committed.after]
  refine committed.keeps (P := fun row? => ∀ session, row? = some (.shell session) → P session) ?_
    before
  rintro statement shown seen ran snapshot old? new? - isNew change keeps session rfl
  rcases session_of_changes change with ⟨-, rfl⟩ | ⟨old, rfl, turn⟩
  · have named : session.webShellSessionId = webShellSessionId := OpsKey.shell.inj (isNew _ rfl)
    have again := OpsCommit.openedAt committed ran
    rw [named] at again
    exact absurd (placed.opened_once opened again) (Nat.ne_of_lt (after.trans_le above))
  · exact kept statement snapshot old session turn (keeps old rfl)

/-! ## Openings -/

/-- The commit of a call that opens a session leaves the session pending. -/
theorem OpsCommit.opening {place : Nat} {txn : OpsTxn} {hostId : Uuid} {principal : Principal}
    {instanceId : String} {reading : WebShellService.HostReading}
    (committed : OpsCommit settings db place id txn answer) (account : OpsAccount settings db)
    (call : txn.call = .createShell webShellSessionId hostId principal instanceId reading) :
    ∃ target now, answer = .opened (WebShellService.pendingSession webShellSessionId hostId
        principal instanceId target now) ∧ .clock now ∈ txn.log ∧
      lookup (committedAt db (place + 1)) (OpsKey.shell webShellSessionId) =
        some (.shell (WebShellService.pendingSession webShellSessionId hostId principal instanceId
          target now)) := by
  have outcome := committed.outcome
  rw [call] at outcome
  generalize log : txn.log = events at outcome
  cases outcome with
  | plain isPlain only => cases isPlain
  | @opened _ _ _ _ _ target now s s' s'' t t' rows gone live added taken session permitted capacity
      enabled isTarget hasKeys isAdded acquired =>
      -- the session is the one row of the insert, and the lock comes after it
      obtain ⟨n, -, ran, -⟩ := account.chronicle.ran_of_committed committed.next committed.found
        committed.done (show txn.log = [_, _, _, _] ++ .ran _ _ _ :: _ from log)
      obtain ⟨-, ⟨-, wrong, -⟩ | ⟨-, rfl, -⟩⟩ := Command.perform_insert ran.performed
      · cases wrong
      obtain ⟨n', -, ran', -⟩ := account.chronicle.ran_of_committed committed.next committed.found
        committed.done (show txn.log = [_, _, _, _, _] ++ .ran _ _ _ :: _ from log)
      refine ⟨target, now, ?_, List.mem_cons_self, ?_⟩
      · exact congrArg OpsAnswer.opened (Option.some.inj isAdded).symm
      · rcases perform_lockHost ran'.performed with ⟨rfl, -⟩ | ⟨rfl, -⟩
        · rw [committedAt, committed.after, log]
          simp only [logged_clock, logged_ran, logged_nil, List.append_nil, OpsStatement.effects,
            List.map_cons, List.map_nil, List.nil_append, applyAll_append, applyAll_cons,
            applyAll_nil, lookup_apply]
          have apart : OpsKey.lock hostId ≠ OpsKey.shell webShellSessionId := by simp
          exact (if_neg apart).trans (if_pos rfl)
        · exact absurd rfl acquired

/-- **Behind every session** there is an earlier commit that has opened it. -/
theorem Placed.exists_opening (placed : Placed settings db) {n : Nat}
    (bound : n ≤ db.history.length) {session : WebShellSession}
    (found : lookup (committedAt db n) (OpsKey.shell webShellSessionId) = some (.shell session)) :
    ∃ place id txn answer hostId principal instanceId reading, place < n ∧
      OpsCommit settings db place id txn answer ∧
        txn.call = .createShell webShellSessionId hostId principal instanceId reading := by
  have lost : ¬ lookup (committedAt db n) (OpsKey.shell webShellSessionId) = none := by
    rw [found]
    exact Option.some_ne_none _
  obtain ⟨place, id, -, below, next, absent, present⟩ := Db.exists_loss
    (P := fun state => lookup state (OpsKey.shell webShellSessionId) = none)
    (lookup_empty _) (Nat.zero_le n) bound lost
  obtain ⟨id', txn, answer, committed⟩ := placed.account.commit (below.trans_le bound)
  obtain rfl := Option.some.inj (committed.next.symm.trans next)
  -- one of its statements adds the session
  have adds : ∃ added shown seen, .ran (.addShell added) shown seen ∈ txn.log ∧
      added.webShellSessionId = webShellSessionId := by
    by_contra none
    refine present (committed.keeps (P := fun row? => row? = .none) ?_ absent)
    rintro statement shown seen ran snapshot old? new? - isNew change rfl
    by_contra isThere
    obtain ⟨row, rfl⟩ := Option.ne_none_iff_exists'.mp isThere
    obtain ⟨added, rfl, named⟩ := shell_of_key (isNew row rfl)
    rcases session_of_changes change with ⟨-, rfl⟩ | ⟨old, isOld, -⟩
    · exact none ⟨added, shown, seen, ran, named⟩
    · cases isOld
  obtain ⟨added, shown, seen, ran, rfl⟩ := adds
  obtain ⟨principal, instanceId, reading, call⟩ :=
    placed_of_outcome committed.outcome _ shown seen ran
  exact ⟨place, id', txn, answer, _, principal, instanceId, reading, below, committed, call⟩

end Runs

end OpsComposer.Coordination
