import OpsComposer.Coordination.Outcomes
import OpsComposer.Foundations.RowOrigins

/-!
# Where web shells and their locks lie

A web shell is opened by one call, which adds its session and takes the lock of the host.  The
rows of both keep their host, whoever hands them on or renews them, so that a lock that names a
session lies at the host of the session (`Placed.host_eq`).

Identifiers of sessions are drawn at random and are assumed not to repeat (`DrawsFresh`).
-/

set_option autoImplicit false

namespace OpsComposer.Coordination

open Domain Foundations Repositories Services
open RowStore

/-! ## Opening a web shell -/

/-- The session that a call opens. -/
def opens? : OpsCall → Option Uuid
  | .createShell webShellSessionId _ _ _ _ => some webShellSessionId
  | _ => none

/-- A call that opens a session draws its identifier afresh. -/
def DrawsFresh (world : OpsWorld) : DbAct OpsCall → Prop
  | .onDb (.begin call) => ∀ id ∈ opens? call, ∀ txn ∈ world.db.txns, opens? txn.call ≠ some id
  | _ => True

instance (world : OpsWorld) (act : DbAct OpsCall) : Decidable (DrawsFresh world act) := by
  unfold DrawsFresh
  split <;> infer_instance

/-- The call opens this session on this host. -/
def OpensAt (call : OpsCall) (webShellSessionId hostId : Uuid) : Prop :=
  ∃ principal instanceId reading,
    call = .createShell webShellSessionId hostId principal instanceId reading

/-- Sessions are added, and locks are taken for them, by the call that opens them. -/
def PlacedBy (call : OpsCall) : OpsStatement → Prop
  | .addShell session => OpensAt call session.webShellSessionId session.hostId
  | .lockHost lock _ => ∀ id ∈ lock.shellId?, OpensAt call id lock.hostId
  | _ => True

section Logs

variable {settings : OpsSettings} {call : OpsCall}

/-- Every statement of a part of a log is such a one. -/
abbrev PlacedIn (call : OpsCall) (log : List OpsEvent) : Prop :=
  ∀ statement rows seen, .ran statement rows seen ∈ log → PlacedBy call statement

theorem placed_nil : PlacedIn call [] := by
  intro statement rows seen ran
  cases ran

variable {log : List OpsEvent} {now : Nat}

theorem placed_clock (rest : PlacedIn call log) : PlacedIn call (.clock now :: log) := by
  intro statement rows seen ran
  rcases List.mem_cons.mp ran with same | later
  · cases same
  · exact rest statement rows seen later

theorem placed_cons {statement : OpsStatement} {rows : List OpsRow} {seen : Nat}
    (here : PlacedBy call statement) (rest : PlacedIn call log) :
    PlacedIn call (.ran statement rows seen :: log) := by
  intro statement' rows' seen' ran
  rcases List.mem_cons.mp ran with same | later
  · obtain ⟨rfl, -, -⟩ := Event.ran.inj same
    exact here
  · exact rest statement' rows' seen' later

theorem placed_append {later : List OpsEvent} (first : PlacedIn call log)
    (rest : PlacedIn call later) : PlacedIn call (log ++ later) := by
  intro statement rows seen ran
  rcases List.mem_append.mp ran with earlier | late
  · exact first statement rows seen earlier
  · exact rest statement rows seen late

theorem placed_targetsInserted {targets : List RunTarget}
    (inserted : TargetsInserted targets log) : PlacedIn call log := by
  induction inserted with
  | nil => exact placed_nil
  | cons rest ih => exact placed_cons trivial ih

theorem placed_secretsStored {draft : RunService.Draft}
    (stored : SecretsStored draft log) : PlacedIn call log := by
  cases stored with
  | none absent => exact placed_nil
  | some present => exact placed_cons trivial placed_nil

theorem placed_eventAppended {event : RunEvent}
    (appended : EventAppended event log) : PlacedIn call log := by
  cases appended with
  | intro isRun => exact placed_cons trivial (placed_cons trivial placed_nil)

theorem placed_leaseRefreshed {workerId : String} {runId : Option Uuid} {expiresAt : Nat}
    (refreshed : LeaseRefreshed workerId runId now expiresAt log) : PlacedIn call log := by
  cases refreshed with
  | intro => exact placed_cons trivial (placed_cons trivial placed_nil)

/-- The locks that a run takes name no session. -/
theorem placed_hostsLocked {runId : Uuid} {workerId : String} {expiresAt taken : Nat}
    {hosts : List Uuid}
    (locked : HostsLocked now (RunRepository.runLock runId workerId now expiresAt) hosts taken
      log) : PlacedIn call log := by
  induction locked with
  | nil => exact placed_nil
  | cons rest ih =>
      refine placed_cons ?_ ih
      intro id named
      cases named

theorem placed_accountsChanged {statements : List AccountStatement}
    (changed : AccountsChanged statements log) : PlacedIn call log := by
  induction changed with
  | nil => exact placed_nil
  | @cons statement _ _ _ _ rest ih =>
      refine placed_cons ?_ ih
      cases statement <;> trivial

/-- **Every call** that comes to an answer has executed such statements only. -/
theorem placed_of_outcome {answer : OpsAnswer}
    (outcome : Outcome settings call answer log) : PlacedIn call log := by
  cases outcome with
  | replayed same | shown | closeIgnored | ended => exact placed_cons trivial placed_nil
  | created isNew same confirmed inserted stored appended =>
      refine placed_append (placed_append (placed_append ?_ (placed_targetsInserted inserted))
        (placed_secretsStored stored)) (placed_eventAppended appended)
      exact placed_cons trivial placed_nil
  | found notNew isThere same => exact placed_cons trivial (placed_cons trivial placed_nil)
  | idle none refreshed =>
      refine placed_append (placed_append ?_ (placed_leaseRefreshed refreshed)) ?_
      · exact placed_clock placed_nil
      · exact placed_cons trivial placed_nil
  | claimed isChosen refreshed locked all refreshed' =>
      refine placed_append (placed_append (placed_append (placed_append (placed_append ?_
        (placed_leaseRefreshed refreshed)) ?_) (placed_hostsLocked locked)) ?_)
        (placed_leaseRefreshed refreshed')
      · exact placed_clock placed_nil
      · exact placed_cons trivial (placed_cons trivial placed_nil)
      · exact placed_cons trivial placed_nil
  | opened permitted capacity enabled isTarget hasKeys isAdded acquired =>
      refine placed_clock (placed_cons trivial (placed_cons trivial (placed_cons trivial ?_)))
      refine placed_cons ⟨_, _, _, rfl⟩ (placed_cons ?_ placed_nil)
      intro id named
      obtain rfl := Option.some.inj named
      exact ⟨_, _, _, rfl⟩
  | launched permitted isThere actor session pending unexpired isActive one =>
      exact placed_clock (placed_cons trivial (placed_cons trivial (placed_cons trivial placed_nil)))
  | beaten => exact placed_clock (placed_cons trivial placed_nil)
  | withdrawn isThere actor pending =>
      exact placed_cons trivial (placed_cons trivial placed_nil)
  | closing isThere actor active =>
      exact placed_cons trivial (placed_clock (placed_cons trivial placed_nil))
  | cleaned => exact placed_cons trivial (placed_clock (placed_cons trivial placed_nil))
  | changed run => exact placed_accountsChanged run
  | plain isPlain only =>
      intro statement rows seen ran
      have isOrdinary := only statement rows seen ran
      cases statement <;> trivial

end Logs

/-! ## Rows -/

/-- The statement has put a session, or a lock that names a session, at its host. -/
def Places : OpsStatement → OpsRow → Prop
  | .addShell session, .shell row =>
      session.webShellSessionId = row.webShellSessionId ∧ session.hostId = row.hostId
  | .lockHost lock _, .lock row => lock.shellId? = row.shellId? ∧ lock.hostId = row.hostId
  | _, .shell _ => False
  | _, .lock _ => False
  | _, _ => True

section Rows

variable {settings : OpsSettings} {statement : OpsStatement}

theorem Places.shell {old new : WebShellSession} (places : Places statement (.shell old))
    (named : new.webShellSessionId = old.webShellSessionId) (host : new.hostId = old.hostId) :
    Places statement (.shell new) := by
  cases statement with
  | addShell session => exact ⟨places.1.trans named.symm, places.2.trans host.symm⟩
  | _ => exact places.elim

theorem Places.lock {old new : HostLock} (places : Places statement (.lock old))
    (holder : new.shellId? = old.shellId?) (host : new.hostId = old.hostId) :
    Places statement (.lock new) := by
  cases statement with
  | lockHost lock now => exact ⟨places.1.trans holder.symm, places.2.trans host.symm⟩
  | _ => exact places.elim

/-- **Rows keep their place.** -/
theorem keeps_places : (opsService settings).Keeps Places := by
  intro statement snapshot before row change
  have touches := touches_of_changes change
  generalize isAfter : some row = after at touches
  -- the other rows have no place
  have elsewhere : (∀ session, row ≠ .shell session) → (∀ lock, row ≠ .lock lock) →
      Places statement row := by
    intro notShell notLock
    cases row with
    | shell session => exact absurd rfl (notShell session)
    | lock lock => exact absurd rfl (notLock lock)
    | _ => cases statement <;> trivial
  have shell : ∀ {old new : WebShellSession}, before = some (.shell old) → row = .shell new →
      new.webShellSessionId = old.webShellSessionId → new.hostId = old.hostId →
        ∃ old, before = some old ∧ ∀ other, Places other old → Places other row := by
    rintro old new rfl rfl named host
    exact ⟨_, rfl, fun other places => places.shell named host⟩
  have lock : ∀ {old new : HostLock}, before = some (.lock old) → row = .lock new →
      new.shellId? = old.shellId? → new.hostId = old.hostId →
        ∃ old, before = some old ∧ ∀ other, Places other old → Places other row := by
    rintro old new rfl rfl holder host
    exact ⟨_, rfl, fun other places => places.lock holder host⟩
  cases touches with
  | shellAdded | locked free =>
      obtain rfl := Option.some.inj isAfter
      exact .inl ⟨rfl, rfl⟩
  | refreshed isOwn | handed unexpired => exact .inr (lock rfl (Option.some.inj isAfter) rfl rfl)
  | shellHeld isShell | activated activatable | closing closable =>
      exact .inr (shell rfl (Option.some.inj isAfter) rfl rfl)
  | @beaten _ _ _ _ _ current old after isChange =>
      cases old <;> simp only [OpsStatement.refreshed, Option.ite_none_right_eq_some,
        Option.some.injEq, reduceCtorEq] at isChange
      · obtain ⟨-, rfl⟩ := isChange
        exact .inr (lock rfl (Option.some.inj isAfter) rfl rfl)
      · obtain ⟨-, rfl⟩ := isChange
        exact .inr (shell rfl (Option.some.inj isAfter) rfl rfl)
  | @recovered _ current old after isChange =>
      refine .inl (elsewhere ?_ ?_)
      all_goals
        rintro gone rfl
        subst isAfter
        cases old <;> simp [OpsStatement.recovered] at isChange
  | @cleaned _ current old after isChange | @shellDeleted _ _ current old after isChange =>
      subst isAfter
      cases old <;> simp [OpsStatement.dropped] at isChange
  | _ => first
    | cases isAfter; done
    | (obtain rfl := Option.some.inj isAfter
       exact .inl (elsewhere (by simp) (by simp)))

end Rows

/-! ## In every run -/

/-- What is known of the places of sessions and locks. -/
structure Placed (settings : OpsSettings) (db : OpsDb) : Prop where
  chronicled : (opsService settings).Chronicled (· = OpsStore.empty) OpsStatement.effects
    (fun _ _ => True) (Outcome settings) db
  sourced : db.Sourced Places
  past : db.SourcedAt Places OpsStore.empty
  /-- A session is opened by one call. -/
  alone : ∀ (i j : Nat) (t t' : OpsTxn) (id : Uuid), db.txns[i]? = some t → db.txns[j]? = some t' →
    opens? t.call = some id → opens? t'.call = some id → i = j

section Runs

variable {settings : OpsSettings} {db : OpsDb}

/-- A transaction that has put a row at its host is the call that opens the session. -/
theorem opensAt_of_stems (placed : Placed settings db) {row : OpsRow}
    (stems : db.Stems Places row) :
    ∃ (id : Nat) (txn : OpsTxn), db.txns[id]? = some txn ∧
      ∃ statement, PlacedBy txn.call statement ∧ Places statement row := by
  obtain ⟨id, txn, found, done, statement, rows, seen, ran, places⟩ := stems
  obtain ⟨start, -, chronicle⟩ := placed.chronicled.chronicle
  obtain ⟨answer, -, outcome⟩ := chronicle.outcome placed.chronicled.points found done
  exact ⟨id, txn, found, statement, placed_of_outcome outcome statement rows seen ran, places⟩

/-- **A lock that names a session** lies at the host of the session, in every committed state. -/
theorem Placed.host_eq (placed : Placed settings db) {n : Nat} (bound : n ≤ db.history.length)
    {webShellSessionId hostId : Uuid} {session : WebShellSession} {lock : HostLock}
    (isShell : lookup (db.stateAt OpsStore.empty n) (.shell webShellSessionId) =
      some (.shell session))
    (isLock : lookup (db.stateAt OpsStore.empty n) (.lock hostId) = some (.lock lock))
    (names : lock.holder = .shell webShellSessionId) : session.hostId = hostId := by
  have named : session.webShellSessionId = webShellSessionId := OpsKey.shell.inj (key_of_lookup isShell)
  have host : lock.hostId = hostId := OpsKey.lock.inj (key_of_lookup isLock)
  obtain ⟨i, t, found, statement, placedBy, places⟩ :=
    opensAt_of_stems placed (placed.past n bound _ _ isShell)
  obtain ⟨j, t', found', statement', placedBy', places'⟩ :=
    opensAt_of_stems placed (placed.past n bound _ _ isLock)
  cases statement with
  | addShell session' =>
      cases statement' with
      | lockHost lock' now =>
          obtain ⟨principal, instanceId, reading, call⟩ := placedBy
          obtain ⟨same, added⟩ := places
          obtain ⟨holder, taken⟩ := places'
          have isHolder : lock'.shellId? = some webShellSessionId :=
            holder.trans (HostLock.shellId?_eq_some.mpr names)
          obtain ⟨principal', instanceId', reading', call'⟩ := placedBy' _ isHolder
          rw [same, named] at call
          obtain rfl := placed.alone i j t t' webShellSessionId found found' (by rw [call]; rfl)
            (by rw [call']; rfl)
          obtain rfl := Option.some.inj (found.symm.trans found')
          have hosts := (OpsCall.createShell.inj (call.symm.trans call')).2.1
          rw [← added, hosts, taken, host]
      | _ => exact places'.elim
  | _ => exact places.elim

/-- A session is opened by one call: **one step**. -/
theorem alone_effect {db' : OpsDb} {admits : OpsCall → Prop} {time : Nat}
    (effect : Db.Effect (opsService settings) admits time db db')
    (fresh : ∀ call, admits call → ∀ id ∈ opens? call, ∀ txn ∈ db.txns, opens? txn.call ≠ some id)
    (alone : ∀ (i j : Nat) (t t' : OpsTxn) (id : Uuid), db.txns[i]? = some t →
      db.txns[j]? = some t' → opens? t.call = some id → opens? t'.call = some id → i = j)
    (i j : Nat) (t t' : OpsTxn) (id : Uuid) (found : db'.txns[i]? = some t)
    (found' : db'.txns[j]? = some t') (opens : opens? t.call = some id)
    (opens' : opens? t'.call = some id) : i = j := by
  rcases effect.origin found with ⟨old, isOld, call⟩ | ⟨last, admitted⟩
  · have opened : opens? old.call = some id := (congrArg opens? call).symm.trans opens
    rcases effect.origin found' with ⟨old', isOld', call'⟩ | ⟨last', admitted'⟩
    · exact alone i j old old' id isOld isOld' opened ((congrArg opens? call').symm.trans opens')
    · exact absurd opened (fresh _ admitted' id opens' old (List.mem_of_getElem? isOld))
  · rcases effect.origin found' with ⟨old', isOld', call'⟩ | ⟨last', admitted'⟩
    · have opened' : opens? old'.call = some id := (congrArg opens? call').symm.trans opens'
      exact absurd opened' (fresh _ admitted id opens old' (List.mem_of_getElem? isOld'))
    · exact last.trans last'.symm

theorem lookup_empty (k : OpsKey) : lookup OpsStore.empty k = none := by
  cases k <;> rfl

/-- **In every run** from the empty database in which sessions draw their identifiers afresh. -/
theorem placed_inductive (settings : OpsSettings) :
    ((opsSystem settings (· = OpsStore.empty)).restrict DrawsFresh).Inductive fun world =>
      Placed settings world.db := by
  have start : ∀ state, state = OpsStore.empty → Placed settings ({ state := state } : OpsDb) := by
    rintro state rfl
    refine ⟨⟨⟨_, rfl, .initial _⟩, fun _ _ found => by simp at found⟩, ⟨?_, ?_⟩, ?_, ?_⟩
    · intro k row shown
      rw [lookup_empty] at shown
      cases shown
    · intro id txn found
      cases found
    · intro n bound k row shown
      obtain rfl : n = 0 := Nat.le_zero.mp bound
      rw [Db.stateAt_zero, lookup_empty] at shown
      cases shown
    · intro i j t t' id found
      cases found
  have programs : ∀ call, Program.Ends (fun _ _ => True) (Outcome settings call) []
      ((opsService settings).program call) := ends_program
  refine Service.inductive_of_effect start ?_
  rintro world action db ⟨⟨⟨_, rfl, chronicle⟩, points⟩, sourced, past, alone⟩ allowed effect -
  have chronicle' := chronicle.effect tellable effect
  have points' := points.effect (fun _ _ _ _ _ _ => trivial) programs effect
  have sourced' := sourced.effect keeps_places effect
  have past' := past.effect chronicle.recorded effect sourced' chronicle'.present
  refine ⟨⟨⟨_, rfl, chronicle'⟩, points'⟩, sourced', past', ?_⟩
  refine alone_effect effect ?_ alone
  rintro call rfl
  exact allowed

end Runs

end OpsComposer.Coordination

