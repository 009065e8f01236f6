import OpsComposer.Foundations.Footprints

/-!
# A database service in time

A service with its database and a clock as a transition system: the environment lets time
pass, lets calls come in and lets transactions go on, in any order.  What a run takes for
granted is a condition on its steps (`System.restrict`).

* `Service.inductive_of_effect` — an invariant that every effect on the database keeps;
* `Db.Evolves` — when every statement changes rows along a relation, every commit does;
* `Db.ReadBy` — readings of the clock lie in the past.
-/

set_option autoImplicit false

namespace OpsComposer.Foundations

open RowStore

variable {σ κ ρ S ε α C : Type}

/-- A database, and the clock that its transactions read. -/
structure DbWorld (σ κ ρ S ε α C : Type) where
  clock : Nat
  db : Db σ κ ρ S ε α C

/-- Time passes, or a transaction makes a step. -/
inductive DbAct (C : Type) where
  | tick (elapsed : Nat)
  | onDb (action : DbAction C)

/-- The clock that is read shows the time. -/
def DbAction.at (time : Nat) : DbAction C → DbAction C
  | .clock id _ => .clock id time
  | action => action

variable [DecidableEq κ] [RowStore σ κ ρ]

/-- One step of the clock or of the database. -/
def DbWorld.step (service : Service σ κ ρ S ε α C) (world : DbWorld σ κ ρ S ε α C) :
    DbAct C → Option (DbWorld σ κ ρ S ε α C)
  | .tick elapsed => some { world with clock := world.clock + elapsed }
  | .onDb action =>
      (world.db.step service (action.at world.clock)).map fun db => { world with db := db }

/-- The service on a database that nothing has been done to. -/
def Service.system (service : Service σ κ ρ S ε α C) (initial : σ → Prop) :
    System (DbWorld σ κ ρ S ε α C) (DbAct C) where
  init world := ∃ clock state, initial state ∧ world = ⟨clock, { state := state }⟩
  step := DbWorld.step service

/-! ## What a step does -/

/-- A step lets time pass, or it is a step of the database. -/
inductive WorldEffect (service : Service σ κ ρ S ε α C) (world : DbWorld σ κ ρ S ε α C) :
    DbAct C → DbWorld σ κ ρ S ε α C → Prop where
  | idle {elapsed : Nat} :
      WorldEffect service world (.tick elapsed) { world with clock := world.clock + elapsed }
  | onDb {action : DbAction C} {db : Db σ κ ρ S ε α C}
      (effect : Db.Effect service (fun call => action = .begin call) world.clock world.db db)
      (commits : ∀ id, db.history = world.db.history ++ [id] → action = .commit id) :
      WorldEffect service world (.onDb action) { world with db := db }

theorem DbAction.within_at (action : DbAction C) (time : Nat) :
    (action.at time).Within (fun call => action = .begin call) time := by
  cases action <;> first | rfl | trivial

/-- **Inversion.** -/
theorem WorldEffect.of_step {service : Service σ κ ρ S ε α C}
    {world world' : DbWorld σ κ ρ S ε α C} {act : DbAct C}
    (step : world.step service act = some world') : WorldEffect service world act world' := by
  cases act with
  | tick elapsed => exact Option.some.inj step ▸ .idle
  | onDb action =>
      obtain ⟨db, stepped, rfl⟩ := Option.map_eq_some_iff.mp step
      refine .onDb (Db.effect_of_step (action.within_at world.clock) stepped) fun id grown => ?_
      rcases Db.history_of_step stepped with same | ⟨id', isCommit, grown'⟩
      · simp [same] at grown
      · obtain rfl : id' = id := by simpa using grown'.symm.trans grown
        cases action <;> first | exact isCommit | cases isCommit

/-- **Invariants** are kept by every effect on the database that the steps of the runs
have. -/
theorem Service.inductive_of_effect {service : Service σ κ ρ S ε α C} {initial : σ → Prop}
    {ok : DbWorld σ κ ρ S ε α C → DbAct C → Prop} {inv : Db σ κ ρ S ε α C → Prop}
    (start : ∀ state, initial state → inv { state := state })
    (kept : ∀ (world : DbWorld σ κ ρ S ε α C) (action : DbAction C) (db : Db σ κ ρ S ε α C),
      inv world.db → ok world (.onDb action) →
        Db.Effect service (fun call => action = .begin call) world.clock world.db db →
          (∀ id, db.history = world.db.history ++ [id] → action = .commit id) → inv db) :
    ((service.system initial).restrict ok).Inductive fun world => inv world.db where
  initial := by
    rintro world ⟨clock, state, isInitial, rfl⟩
    exact start state isInitial
  preserved world act world' holds step := by
    obtain ⟨allowed, step⟩ := System.restrict_step.mp step
    cases WorldEffect.of_step step with
    | idle => exact holds
    | onDb effect commits => exact kept world _ _ holds allowed effect commits

namespace Db

variable {service : Service σ κ ρ S ε α C} {admits : C → Prop} {time : Nat}
  {db db' : Db σ κ ρ S ε α C}

/-- A transaction stays in its place, with its call. -/
theorem Effect.stays (effect : Effect service admits time db db') {j : Nat} {t : Txn σ κ ρ S ε α C}
    (present : db.txns[j]? = some t) : ∃ t', db'.txns[j]? = some t' ∧ t'.call = t.call := by
  -- the transaction that the step is about, or another one
  have replaced : ∀ {id : Nat} {txn txn' : Txn σ κ ρ S ε α C}, db.txns[id]? = some txn →
      txn'.call = txn.call → ∃ t', (db.txns.set id txn')[j]? = some t' ∧ t'.call = t.call := by
    intro id txn txn' found call
    rw [getElem?_set_of_found found]
    by_cases same : id = j
    · subst same
      obtain rfl : txn = t := Option.some.inj (found.symm.trans present)
      exact ⟨txn', if_pos rfl, call⟩
    · exact ⟨t, (if_neg same).trans present, rfl⟩
  cases effect with
  | begun _ =>
      obtain ⟨bound, -⟩ := List.getElem?_eq_some_iff.mp present
      exact ⟨t, (List.getElem?_append_left bound).trans present, rfl⟩
  | moved found moves => exact replaced found moves.call
  | committed found _ _ => exact replaced found rfl

/-- No reading of the clock in a log is later than a time. -/
def ReadBy (db : Db σ κ ρ S ε α C) (time : Nat) : Prop :=
  ∀ (id : Nat) (txn : Txn σ κ ρ S ε α C) (now : Nat), db.txns[id]? = some txn →
    .clock now ∈ txn.log → now ≤ time

theorem ReadBy.effect (readBy : ReadBy db time) (effect : Effect service admits time db db') :
    ReadBy db' time := by
  intro j t now present read
  cases effect with
  | begun _ =>
      rcases of_getElem?_append present with ⟨-, rfl⟩ | old
      · cases read
      · exact readBy j t now old read
  | @moved id txn txn' found moves =>
      rcases of_getElem?_set found present with ⟨rfl, rfl⟩ | ⟨-, old⟩
      · have before := readBy id txn now found
        cases moves with
        | clock _ _ =>
            rcases List.mem_append.mp read with earlier | last
            · exact before earlier
            · exact (Event.clock.inj (List.mem_singleton.mp last)).le
        | snapshot _ _ _ | checked _ _ _ _ _ | aborted _ => exact before read
        | performed _ _ _ =>
            rcases List.mem_append.mp read with earlier | last
            · exact before earlier
            · cases List.mem_singleton.mp last
      · exact readBy j t now old read
  | @committed id txn _ found _ _ =>
      rcases of_getElem?_set found present with ⟨rfl, rfl⟩ | ⟨-, old⟩
      · exact readBy id txn now found read
      · exact readBy j t now old read

/-! ## How rows evolve -/

/-- What a statement does to a row is a step along the relation. -/
def Along (service : Service σ κ ρ S ε α C) (R : Option ρ → Option ρ → Prop)
    (db : Db σ κ ρ S ε α C) : Prop :=
  ∀ (id : Nat) (txn : Txn σ κ ρ S ε α C) (statement : S) (next : List ρ → Program S ρ ε α)
    (shown : List ρ) (writes : List (Write κ ρ)), db.txns[id]? = some txn →
      txn.program = .run statement next →
        db.performed service id txn statement = some (some (shown, writes)) →
          ∀ before after, Command.Changes
            (service.meaning statement (txn.view (db.snapshotFor txn).state)) before after →
              R before after

/-- Unfinished transactions see each row as it is, or further along the relation. -/
def Evolves (R : Option ρ → Option ρ → Prop) (db : Db σ κ ρ S ε α C) : Prop :=
  ∀ (id : Nat) (txn : Txn σ κ ρ S ε α C), db.txns[id]? = some txn → txn.live = true →
    ∀ k, R (lookup db.state k) (lookup (txn.view db.state) k)

section Evolves

variable {R : Option ρ → Option ρ → Prop}

theorem Evolves.effect (evolves : Evolves R db) (exclusive : Exclusive db)
    (reflexive : ∀ row?, R row? row?)
    (transitive : ∀ row? middle? last?, R row? middle? → R middle? last? → R row? last?)
    (along : Along service R db) (effect : Effect service admits time db db') : Evolves R db' := by
  intro j t present live k
  cases effect with
  | begun _ =>
      rcases of_getElem?_append present with ⟨-, rfl⟩ | old
      · exact reflexive _
      · exact evolves j t old live k
  | @moved id txn txn' found moves =>
      rcases of_getElem?_set found present with ⟨rfl, rfl⟩ | ⟨-, old⟩
      · have before := evolves id txn found moves.live k
        cases moves with
        | clock _ _ | snapshot _ _ _ | checked _ _ _ _ _ | aborted _ => exact before
        | performed _ stands result =>
            rcases performed_row result k with ⟨-, same⟩ | ⟨-, change⟩
            · exact Eq.subst (motive := R (lookup db.state k)) same.symm before
            · exact transitive _ _ _ before (along id txn _ _ _ _ found stands result _ _ change)
      · exact evolves j t old live k
  | @committed id txn _ found _ ready =>
      rcases of_getElem?_set found present with ⟨-, rfl⟩ | ⟨apart, old⟩
      · simp [Txn.live] at live
      · show R (lookup (txn.view db.state) k) (lookup (t.view (txn.view db.state)) k)
        rw [view_commit]
        by_cases held : k ∈ t.holds
        · have free := exclusive j id t txn (Ne.symm apart) old found live (live_of_ready ready) k held
          rw [if_pos held, view_of_not_held db.state free]
          exact evolves j t old live k
        · rw [if_neg held]
          exact reflexive _

/-- **One step** takes every committed row along the relation. -/
theorem Evolves.state (evolves : Evolves R db) (reflexive : ∀ row?, R row? row?)
    (effect : Effect service admits time db db') (k : κ) :
    R (lookup db.state k) (lookup db'.state k) := by
  cases effect with
  | begun _ | moved _ _ => exact reflexive _
  | @committed id txn _ found _ ready => exact evolves id txn found (live_of_ready ready) k

end Evolves

end Db

end OpsComposer.Foundations
