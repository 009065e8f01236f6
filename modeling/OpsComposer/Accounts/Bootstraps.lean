import OpsComposer.Accounts.System
import OpsComposer.Foundations.CommitHistory
import OpsComposer.Foundations.RowOrigins
import OpsComposer.Services.Bootstrap

/-!
# How often bootstrapping succeeds

Nothing erases a user, so that a bootstrap that counts the users after another one has
committed finds one and gives up (`counts_of_committed`).  A bootstrap that has counted
before commits all the same: two of them may commit (`bootstrap_once_fails`).  In runs in
which no bootstrap commits between the count and the commit of another one, one commits at
most (`bootstrap_once`).
-/

set_option autoImplicit false

namespace OpsComposer.Bootstrap

open Domain Foundations Services RowStore
open BootstrapStatement (effects Adds)
open Program (Ends ends_done ends_run ends_clock ends_orFail ends_raiseIf ends_ofAnswer)

/-! ## Statements and logs -/

section Statements

variable {primitives : Primitives}

/-- An insert returns its row. -/
def Told : BootstrapStatement → List BootstrapRow → Prop
  | .addUser user, rows => rows = [.user user]
  | .append event, rows => rows = [.event event]
  | _, _ => True

/-- **The returned rows of a statement tell its writes.** -/
theorem tellable : (bootstrapService primitives).Tellable effects := by
  intro statement snapshot current shown writes done
  cases statement with
  | countUsers | read query =>
      obtain ⟨rfl, rfl⟩ := Prod.mk.inj (Option.some.inj done)
      rfl
  | addUser user | append event =>
      rcases (Command.perform_insert done).2 with ⟨-, refused, -⟩ | ⟨-, rfl, rfl⟩
      · cases refused
      · rfl
  | updateUsers condition set keeps => exact (Command.perform_set done).2
  | purge condition => exact (Command.perform_delete done).2

theorem tells : (bootstrapService primitives).Tells Told := by
  intro statement snapshot current shown writes done
  cases statement with
  | addUser user | append event =>
      rcases (Command.perform_insert done).2 with ⟨-, refused, -⟩ | ⟨-, rfl, -⟩
      · cases refused
      · rfl
  | countUsers | read query | updateUsers condition set keeps | purge condition => trivial

/-- **Users stay.** -/
theorem not_makes_erase (statement : BootstrapStatement) (userId : Uuid) :
    ¬ (bootstrapService primitives).Makes statement (.erase (.user userId)) := by
  rintro ⟨snapshot, current, shown, writes, done, member⟩
  have writes := tellable statement snapshot current shown writes done ▸ member
  cases statement with
  | countUsers | read query => cases writes
  | addUser user | append event | updateUsers condition set keeps => simp [effects] at writes
  | purge condition =>
      obtain ⟨row, returned, same⟩ := List.mem_map.mp writes
      rw [(Command.perform_delete done).1] at returned
      obtain ⟨-, holds, -⟩ := Command.mem_found.mp returned
      obtain ⟨event, rfl, -⟩ := BootstrapRow.events.meets_iff.mp holds
      simp [BootstrapRow.events, BootstrapRow.key] at same

/-- The log of a call that has come to its end, with its answer. -/
inductive Outcome (primitives : Primitives) :
    BootstrapCall → Option User → List BootstrapEvent → Prop where
  | bootstrapped {userId : Uuid} {auditEventId salt : Nat} {username passwordHash : String}
      {password : Text} {now occurredAt seen seen' seen'' : Nat} {owner : User}
      (hashed : AuthService.hashPassword primitives salt password = .ok passwordHash)
      (isOwner : owner =
        firstOwner userId (primitives.canonicalUsername username) passwordHash now) :
      Outcome primitives (.bootstrap userId auditEventId salt username password) (some owner)
        [.clock now, .clock occurredAt, .ran .countUsers [] seen,
          .ran (.addUser owner) [.user owner] seen',
          .ran (.append (bootstrapped userId auditEventId occurredAt))
            [.event (bootstrapped userId auditEventId occurredAt)] seen'']
  | other {program : BootstrapProgram} {answer : Option User} {log : List BootstrapEvent} :
      Outcome primitives (.other program) answer log

/-- **Every call** that comes to its end has one of these logs. -/
theorem ends_program (call : BootstrapCall) :
    Ends Told (Outcome primitives call) [] ((bootstrapService primitives).program call) := by
  cases call with
  | bootstrap userId auditEventId salt username password =>
      refine ends_ofAnswer fun _ _ => ends_ofAnswer fun _ _ =>
        ends_ofAnswer fun passwordHash hashed => ends_clock fun now =>
        ends_clock fun occurredAt => ends_run fun users seen _ => ends_raiseIf fun none => ?_
      refine ends_run fun rows seen' added => ends_orFail fun created isCreated => ?_
      refine ends_run fun events seen'' appended => ends_orFail fun _ _ => ?_
      obtain rfl : rows = _ := added
      obtain rfl : events = _ := appended
      obtain rfl : users = [] := by simpa using none
      obtain rfl := Option.some.inj isCreated
      exact ends_done (.bootstrapped hashed rfl)
  | other program =>
      exact (Program.everywhere_true program []).mono fun log program _ answer _ => .other

/-- A bootstrap whose count has found a user gives up. -/
def Refuses (call : BootstrapCall) (log : List BootstrapEvent) (program : BootstrapProgram) :
    Prop :=
  call.isBootstrap = true → ∀ shown seen, .ran .countUsers shown seen ∈ log → shown ≠ [] →
    program = .fail .adminAlreadyExists

theorem refuses_program (call : BootstrapCall) :
    Program.Everywhere Told (Refuses call) [] ((bootstrapService primitives).program call) := by
  -- before the count there is nothing to say, and afterwards it has found nobody
  have quiet : ∀ {log : List BootstrapEvent} {program : BootstrapProgram},
      (∀ shown seen, .ran .countUsers shown seen ∈ log → shown = []) →
        Refuses call log program := by
    intro log program none _ shown seen member found
    exact absurd (none shown seen member) found
  cases call with
  | other program =>
      refine (Program.everywhere_true program []).mono fun log program _ isBootstrap => ?_
      cases isBootstrap
  | bootstrap userId auditEventId salt username password =>
      simp only [bootstrapService, bootstrap]
      cases AuthService.validateUsername (primitives.canonicalUsername username) with
      | error error => exact quiet (by simp)
      | ok valid =>
          cases AuthService.validatePassword password with
          | error error => exact quiet (by simp)
          | ok valid =>
          cases AuthService.hashPassword primitives salt password with
          | error error => exact quiet (by simp)
          | ok passwordHash =>
              refine ⟨quiet (by simp), fun now => ?_⟩
              refine ⟨quiet (by simp), fun occurredAt => ?_⟩
              refine ⟨quiet (by simp), fun users seen _ => ?_⟩
              cases users with
              | cons user users => exact fun _ _ _ _ _ => rfl
              | nil =>
                  refine ⟨quiet (by simp_all), fun rows seen' added => ?_⟩
                  obtain rfl : rows = _ := added
                  refine ⟨quiet (by simp_all), fun rows seen'' added => ?_⟩
                  obtain rfl : rows = _ := added
                  exact quiet (by simp_all)

end Statements

/-! ## After a commit -/

section Commits

variable {primitives : Primitives} {db : BootstrapDb}

/-- A run so far, from an empty database on. -/
abbrev Account (primitives : Primitives) (db : BootstrapDb) : Prop :=
  (bootstrapService primitives).Account effects Told (Outcome primitives) (fun _ _ _ => True)
    (Table.empty : BootstrapStore) db

/-- A user is present in a state. -/
def HasUser (state : BootstrapStore) (userId : Uuid) : Prop :=
  ∃ row, lookup state (.user userId) = some row

/-- The writes of a log never take a user away. -/
theorem hasUser_logged (account : Account primitives db) {id : Nat} {txn : BootstrapTxn}
    (found : db.txns[id]? = some txn) {log later : List BootstrapEvent}
    (split : txn.log = log ++ later) {state : BootstrapStore} {userId : Uuid}
    (there : .user userId ∈ touched BootstrapStore (logged effects log) ∨ HasUser state userId) :
    HasUser (applyAll state (logged effects log)) userId := by
  refine exists_lookup_applyAll (fun erased => ?_) there
  have written : .erase (.user userId) ∈ logged effects txn.log := by
    rw [split, logged_append]
    exact List.mem_append_left _ erased
  obtain ⟨statement, -, -, -, -, makes⟩ := account.chronicle.makes_of_written found written
  exact not_makes_erase statement userId makes

/-- **A committed bootstrap** leaves a user in every later state. -/
theorem hasUser_of_committed (account : Account primitives db) {p id : Nat}
    (next : db.history[p]? = some id) (isBootstrap : bootstrapAt db id = true) :
    ∃ userId, ∀ m, p < m → m ≤ db.history.length → HasUser (db.stateAt Table.empty m) userId := by
  obtain ⟨bound, same⟩ := List.getElem?_eq_some_iff.mp next
  obtain ⟨id', txn, answer, committed⟩ := account.commit bound
  obtain rfl : id = id' := Option.some.inj (next.symm.trans committed.next)
  have found := committed.found
  have outcome := committed.outcome
  simp only [bootstrapAt, found, Option.any_some] at isBootstrap
  obtain ⟨userId, added⟩ : ∃ userId, .user userId ∈
      touched BootstrapStore (logged effects txn.log) := by
    generalize txn.log = log at outcome
    generalize txn.call = call at outcome isBootstrap
    cases outcome with
    | other => cases isBootstrap
    | @bootstrapped _ _ _ _ _ _ _ _ _ _ _ owner _ _ =>
        exact ⟨owner.userId, by simp [effects, touched, written, RowStore.key, BootstrapRow.key]⟩
  refine ⟨userId, fun m above le => ?_⟩
  refine account.induct (P := fun state => HasUser state userId) above le ?_ ?_
  · rw [committed.after]
    exact hasUser_logged account found (List.append_nil _).symm (.inl added)
  · intro i id txn answer _ _ committed before
    exact hasUser_logged account committed.found (List.append_nil _).symm (.inr before)

/-- **A count** of users that has seen the commit of a bootstrap finds one. -/
theorem counts_of_committed (account : Account primitives db) {p id j : Nat}
    (next : db.history[p]? = some id) (isBootstrap : bootstrapAt db id = true)
    {txn : BootstrapTxn} (found : db.txns[j]? = some txn) {shown : List BootstrapRow} {seen : Nat}
    (ran : .ran .countUsers shown seen ∈ txn.log) (later : p < seen) : shown ≠ [] := by
  obtain ⟨earlier, rest, split⟩ := List.append_of_mem ran
  obtain ⟨n, ranAt, -⟩ := account.chronicle.ran j txn found earlier _ shown seen rest split
  obtain ⟨userId, stays⟩ := hasUser_of_committed account next isBootstrap
  have before := stays seen later (ranAt.le.trans ranAt.bound)
  obtain ⟨row, visible⟩ := hasUser_logged account found split (.inr before)
  -- the snapshot of the count shows the row
  obtain ⟨isShown, -⟩ := Prod.mk.inj (Option.some.inj ranAt.performed)
  have member : row ∈ shown := by
    rw [← isShown]
    refine List.mem_filter.mpr ⟨mem_of_lookup visible, ?_⟩
    have named : BootstrapRow.key row = .user userId := key_of_lookup visible
    cases row with
    | user user => rfl
    | event event => cases named
  exact List.ne_nil_of_mem member

end Commits

/-! ## In every run -/

section Runs

variable {primitives : Primitives} {db db' : BootstrapDb}

/-- At most one of the committed transactions is a bootstrap. -/
def AtMostOnce (db : BootstrapDb) : Prop :=
  ∀ id ∈ db.history, ∀ id' ∈ db.history, bootstrapAt db id = true → bootstrapAt db id' = true →
    id = id'

/-- A transaction stays what it is. -/
theorem bootstrapAt_effect {admits : BootstrapCall → Prop} {time : Nat}
    (effect : Db.Effect (bootstrapService primitives) admits time db db') {id : Nat}
    {txn : BootstrapTxn} (found : db.txns[id]? = some txn) :
    bootstrapAt db' id = bootstrapAt db id := by
  obtain ⟨txn', found', call⟩ := effect.stays found
  simp only [bootstrapAt, found, found', Option.any_some, call]

theorem mem_counted {log : List BootstrapEvent} {seen : Nat} :
    seen ∈ counted log ↔ ∃ shown, .ran .countUsers shown seen ∈ log := by
  rw [counted, List.mem_filterMap]
  constructor
  · rintro ⟨event, member, isCount⟩
    cases event with
    | clock now => cases isCount
    | ran statement shown seen' =>
        cases statement with
        | countUsers =>
            obtain rfl := Option.some.inj isCount
            exact ⟨shown, member⟩
        | _ => cases isCount
  · rintro ⟨shown, member⟩
    exact ⟨_, member, rfl⟩

/-- What is known of every run. -/
abbrev Known (primitives : Primitives) (db : BootstrapDb) : Prop :=
  (bootstrapService primitives).Chronicled (· = Table.empty) effects Told (Outcome primitives) db

theorem Known.account (known : Known primitives db) : ∃ _ : Account primitives db, True := by
  obtain ⟨⟨start, rfl, chronicle⟩, points⟩ := known
  exact ⟨⟨chronicle, points, fun _ _ _ _ _ => trivial⟩, trivial⟩

/-- **One step**: a bootstrap that is undisturbed commits only when none has committed. -/
theorem AtMostOnce.effect {world : BootstrapWorld} {action : DbAction BootstrapCall}
    (once : AtMostOnce world.db) (known : Known primitives world.db)
    (undisturbed : Undisturbed world (.onDb action))
    (effect : Db.Effect (bootstrapService primitives) (fun call => action = .begin call)
      world.clock world.db db)
    (commits : ∀ id, db.history = world.db.history ++ [id] → action = .commit id) :
    AtMostOnce db := by
  obtain ⟨account, -⟩ := known.account
  have same : ∀ id ∈ world.db.history, bootstrapAt db id = bootstrapAt world.db id := by
    intro id member
    obtain ⟨txn, found, -⟩ := (account.chronicle.recorded.iff id).mp member
    exact bootstrapAt_effect effect found
  have old : ∀ id ∈ world.db.history, ∀ id' ∈ world.db.history, bootstrapAt db id = true →
      bootstrapAt db id' = true → id = id' := by
    intro id member id' member' isBootstrap isBootstrap'
    rw [same id member] at isBootstrap
    rw [same id' member'] at isBootstrap'
    exact once id member id' member' isBootstrap isBootstrap'
  have kept : ∀ (id : Nat) (txn : BootstrapTxn), world.db.txns[id]? = some txn →
      bootstrapAt db id = bootstrapAt world.db id := fun _ _ => bootstrapAt_effect effect
  cases effect with
  | begun _ | moved _ _ => exact old
  | @committed id txn answer found stands _ =>
      obtain rfl := commits id rfl
      have unfinished : bootstrapAt world.db id = true → ∀ other ∈ world.db.history,
          bootstrapAt world.db other = false := by
        intro isBootstrap other member
        simp only [bootstrapAt, found, Option.any_some] at isBootstrap
        obtain ⟨p, next⟩ := List.mem_iff_getElem?.mp member
        by_contra another
        have another : bootstrapAt world.db other = true := by simpa using another
        -- the count of the one that commits has found no user, so that it has seen less
        have outcome := account.points id txn found |>.here answer stands
        obtain ⟨seen, ran⟩ : ∃ seen, .ran .countUsers [] seen ∈ txn.log := by
          generalize txn.log = log at outcome
          generalize txn.call = call at outcome isBootstrap
          cases outcome with
          | other => cases isBootstrap
          | @bootstrapped _ _ _ _ _ _ _ _ seen _ _ _ _ _ => exact ⟨seen, by simp⟩
        rcases Nat.lt_or_ge p seen with sees | later
        · exact counts_of_committed account next another found ran sees rfl
        · have since : other ∈ world.db.history.drop seen := by
            refine List.mem_iff_getElem?.mpr ⟨p - seen, ?_⟩
            rw [List.getElem?_drop, Nat.add_sub_cancel' later]
            exact next
          have window := undisturbed txn found isBootstrap seen (mem_counted.mpr ⟨_, ran⟩) other since
          rw [another] at window
          cases window
      intro i member j member' isBootstrap isBootstrap'
      rcases List.mem_append.mp member with before | now
      · rcases List.mem_append.mp member' with before' | now'
        · exact old i before j before' isBootstrap isBootstrap'
        · obtain rfl := List.mem_singleton.mp now'
          rw [kept j txn found] at isBootstrap'
          rw [same i before, unfinished isBootstrap' i before] at isBootstrap
          cases isBootstrap
      · obtain rfl := List.mem_singleton.mp now
        rcases List.mem_append.mp member' with before' | now'
        · rw [kept i txn found] at isBootstrap
          rw [same j before', unfinished isBootstrap j before'] at isBootstrap'
          cases isBootstrap'
        · exact (List.mem_singleton.mp now').symm

/-- A row stays what has been added: a change keeps the identifier of a user, and events are
not changed. -/
theorem keeps_adds (primitives : Primitives) : (bootstrapService primitives).Keeps Adds := by
  intro statement snapshot before row change
  simp only [bootstrapService] at change
  cases statement with
  | countUsers | read query => cases change
  | addUser user | append event =>
      cases change with
      | insert => exact .inl rfl
  | updateUsers condition set keeps =>
      generalize isRow : some row = row? at change
      cases change with
      | update holds =>
          obtain ⟨user, rfl, -⟩ := BootstrapRow.users.meets_iff.mp holds
          rw [BootstrapRow.users.map_wrap] at isRow
          obtain rfl := Option.some.inj isRow
          refine .inr ⟨_, rfl, fun other adds => ?_⟩
          cases other with
          | addUser added => exact Eq.trans adds (keeps snapshot user).symm
          | _ => exact adds.elim
  | purge condition =>
      generalize isRow : some row = row? at change
      cases change with
      | delete holds => cases isRow

/-- **The invariant of the runs** in which bootstraps are undisturbed. -/
theorem once_inductive (primitives : Primitives) :
    ((bootstrapSystem primitives).restrict Undisturbed).Inductive fun world =>
      Known primitives world.db ∧ AtMostOnce world.db := by
  refine (Service.inductive_chronicled tellable tells ends_program).strengthen ?_ ?_
  · rintro world ⟨clock, state, rfl, rfl⟩ id member
    cases member
  · intro world act world' known once step
    obtain ⟨allowed, step⟩ := System.restrict_step.mp step
    cases WorldEffect.of_step step with
    | idle => exact once
    | onDb effect commits => exact once.effect known allowed effect commits

theorem refuses_inductive (primitives : Primitives) :
    ((bootstrapSystem primitives).restrict Undisturbed).Inductive fun world =>
      world.db.AtPoints Told Refuses := by
  refine Service.inductive_of_effect (fun state _ _ _ found => by simp at found) ?_
  intro world action db refuses _ effect _
  exact refuses.effect tells refuses_program effect

theorem sourced_inductive (primitives : Primitives) :
    ((bootstrapSystem primitives).restrict Undisturbed).Inductive fun world =>
      world.db.Sourced Adds := by
  refine Service.inductive_of_effect ?_ ?_
  · rintro state rfl
    refine ⟨fun k row shown => ?_, fun _ _ found => by simp at found⟩
    exact absurd shown (by simp [RowStore.lookup])
  · intro world action db sourced _ effect _
    exact sourced.effect (keeps_adds primitives) effect

end Runs

/-- A bootstrap has been committed. -/
def Bootstrapped (db : BootstrapDb) (id : Nat) : Prop :=
  ∃ txn : BootstrapTxn, db.txns[id]? = some txn ∧ txn.call.isBootstrap = true ∧
    txn.status = .committed

/-- **Bootstrapping succeeds at most once** in every run in which no bootstrap commits between
the count and the commit of another one.  A bootstrap that counts the users later on raises,
and no transaction leaves a user or an event behind that is not committed. -/
theorem bootstrap_once (primitives : Primitives) {world : BootstrapWorld}
    (reached : ((bootstrapSystem primitives).restrict Undisturbed).Reachable world) :
    (∀ id id', Bootstrapped world.db id → Bootstrapped world.db id' → id = id') ∧
      (∀ p id, world.db.history[p]? = some id → Bootstrapped world.db id →
        ∀ (j : Nat) (txn : BootstrapTxn), world.db.txns[j]? = some txn →
          txn.call.isBootstrap = true → ∀ seen ∈ counted txn.log, p < seen →
            txn.program = .fail .adminAlreadyExists) ∧
        ∀ k row, lookup world.db.state k = some row → world.db.Stems Adds row := by
  obtain ⟨known, once⟩ := (once_inductive primitives).of_reachable reached
  have refuses := (refuses_inductive primitives).of_reachable reached
  have sourced := (sourced_inductive primitives).of_reachable reached
  obtain ⟨account, -⟩ := known.account
  have isAt : ∀ id, Bootstrapped world.db id → bootstrapAt world.db id = true := by
    rintro id ⟨txn, found, isBootstrap, -⟩
    simp [bootstrapAt, found, isBootstrap]
  have isPast : ∀ id, Bootstrapped world.db id → id ∈ world.db.history := by
    rintro id ⟨txn, found, -, done⟩
    exact (account.chronicle.recorded.iff id).mpr ⟨txn, found, done⟩
  refine ⟨?_, ?_, sourced.committed⟩
  · intro id id' first second
    exact once id (isPast id first) id' (isPast id' second) (isAt id first) (isAt id' second)
  · intro p id next first j txn found isBootstrap seen member later
    obtain ⟨shown, ran⟩ := mem_counted.mp member
    exact (refuses j txn found).here isBootstrap shown seen ran
      (counts_of_committed account next (isAt id first) found ran later)

/-! ## Two bootstraps -/

section Example

open Accounts (plain)

/-- A freshly migrated database. -/
def freshDatabase : BootstrapWorld := ⟨0, { state := Table.empty }⟩

/-- The steps of a bootstrap up to its count, and from there to the commit. -/
def untilCount (id : Nat) : List (DbAct BootstrapCall) :=
  [.onDb (.clock id 0), .onDb (.clock id 0), .onDb (.perform id)]

/-- What is left of a bootstrap when it has counted the users. -/
def afterCount (id : Nat) : List (DbAct BootstrapCall) :=
  [.onDb (.perform id), .onDb (.perform id), .onDb (.commit id)]

/-- Two bootstraps begin. -/
def twoCalls : List (DbAct BootstrapCall) :=
  [.onDb (.begin (.bootstrap 1 1 0 "alice" (text "correct horse"))),
    .onDb (.begin (.bootstrap 2 2 0 "bob" (text "battery staple")))]

/-- The transaction is a bootstrap that has been committed. -/
def DoneAt (db : BootstrapDb) (id : Nat) : Bool :=
  db.txns[id]?.any fun txn => txn.call.isBootstrap && decide (txn.status = .committed)

theorem bootstrapped_of_doneAt {db : BootstrapDb} {id : Nat} (done : DoneAt db id = true) :
    Bootstrapped db id := by
  obtain ⟨txn, found, holds⟩ := (Option.any_eq_true _ _).mp done
  obtain ⟨isBootstrap, committed⟩ := Bool.and_eq_true_iff.mp holds
  exact ⟨txn, found, isBootstrap, of_decide_eq_true committed⟩

/-- The second one counts the users when the first one has committed. -/
theorem bootstrap_once_two : ∃ (world : BootstrapWorld) (txn : BootstrapTxn),
    (bootstrapSystem plain).exec freshDatabase
        (twoCalls ++ untilCount 0 ++ afterCount 0 ++ untilCount 1) = some world ∧
      Bootstrapped world.db 0 ∧ world.db.txns[1]? = some txn ∧ counted txn.log = [1] ∧
        txn.program = .fail .adminAlreadyExists := by
  have ran : ((bootstrapSystem plain).exec freshDatabase
      (twoCalls ++ untilCount 0 ++ afterCount 0 ++ untilCount 1)).map (fun world =>
        (DoneAt world.db 0, world.db.history,
          (world.db.txns[1]?.map fun txn => (txn.call.isBootstrap, counted txn.log)))) =
        some (true, [0], some (true, [1])) := by
    decide +kernel
  have along : (bootstrapSystem plain).Along Undisturbed freshDatabase
      (twoCalls ++ untilCount 0 ++ afterCount 0 ++ untilCount 1) := by
    decide +kernel
  obtain ⟨world, done, facts⟩ := Option.map_eq_some_iff.mp ran
  obtain ⟨first, rest⟩ := Prod.mk.inj facts
  obtain ⟨history, second⟩ := Prod.mk.inj rest
  obtain ⟨txn, found, rest⟩ := Option.map_eq_some_iff.mp second
  obtain ⟨isBootstrap, counts⟩ := Prod.mk.inj rest
  have reached : ((bootstrapSystem plain).restrict Undisturbed).Reachable world :=
    ⟨freshDatabase, ⟨0, Table.empty, rfl, rfl⟩, System.leads_restrict_of_exec done along⟩
  have first := bootstrapped_of_doneAt first
  obtain ⟨-, refused, -⟩ := bootstrap_once plain reached
  exact ⟨world, txn, done, first, found, counts,
    refused 0 0 (by rw [history]; rfl) first 1 txn found isBootstrap 1 (by simp [counts])
      Nat.zero_lt_one⟩

/-- Both count the users before one of them commits, and both commit. -/
theorem bootstrap_once_fails : ¬ ∀ (primitives : Primitives) (world : BootstrapWorld),
    (bootstrapSystem primitives).Reachable world →
      ∀ id id', Bootstrapped world.db id → Bootstrapped world.db id' → id = id' := by
  have ran : ((bootstrapSystem plain).exec freshDatabase
      (twoCalls ++ untilCount 0 ++ untilCount 1 ++ afterCount 0 ++ afterCount 1)).any (fun world =>
        DoneAt world.db 0 && DoneAt world.db 1) = true := by
    decide +kernel
  obtain ⟨world, done, both⟩ := (Option.any_eq_true _ _).mp ran
  obtain ⟨first, second⟩ := Bool.and_eq_true_iff.mp both
  intro once
  have same := once plain world
    ⟨freshDatabase, ⟨0, Table.empty, rfl, rfl⟩, System.leads_of_exec done⟩ 0 1
    (bootstrapped_of_doneAt first) (bootstrapped_of_doneAt second)
  cases same

end Example

end OpsComposer.Bootstrap
