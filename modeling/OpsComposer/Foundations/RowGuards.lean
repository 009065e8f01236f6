import OpsComposer.Foundations.Chronicle

/-!
# Held rows stay with their transaction

From the snapshot of a statement on until its transaction ends, no other transaction commits
under a key that the transaction held before the statement (`Db.Guarded`).  So what one
transaction reads of such a key, and of whatever the others change only together with it, is
what is committed when it commits.
-/

set_option autoImplicit false

namespace OpsComposer.Foundations

open RowStore

variable {σ κ ρ S ε α C : Type} [DecidableEq κ] [RowStore σ κ ρ]

namespace Db

/-- From a place in the history to the place of the transaction, no other transaction has
committed under the key. -/
def Alone (db : Db σ κ ρ S ε α C) (id seen : Nat) (k : κ) : Prop :=
  ∀ m other, seen ≤ m → m < db.place id → db.history[m]? = some other →
    k ∉ touched σ (db.writesAt other)

/-- The keys of one transaction, from each of its statements on. -/
structure Guards (effects : S → List ρ → List (Write κ ρ)) (db : Db σ κ ρ S ε α C) (id : Nat)
    (txn : Txn σ κ ρ S ε α C) : Prop where
  ran : ∀ earlier statement shown seen later, txn.log = earlier ++ .ran statement shown seen :: later →
    ∀ k ∈ touched σ (logged effects earlier), db.Alone id seen k
  waiting : ∀ snapshot, txn.snapshot = some snapshot → ∀ k ∈ txn.holds,
    db.Alone id snapshot.seen k

/-- Transactions that have not failed guard the keys that they hold. -/
def Guarded (effects : S → List ρ → List (Write κ ρ)) (db : Db σ κ ρ S ε α C) : Prop :=
  ∀ (id : Nat) (txn : Txn σ κ ρ S ε α C), db.txns[id]? = some txn → txn.status ≠ .aborted →
    Guards effects db id txn

variable {service : Service σ κ ρ S ε α C} {admits : C → Prop} {time : Nat}
  {db db' : Db σ κ ρ S ε α C} {effects : S → List ρ → List (Write κ ρ)} {start : σ}

/-- The writes of a committed transaction stay. -/
theorem Effect.writesAt (effect : Effect service admits time db db') (recorded : Recorded db)
    {m other : Nat} (isCommit : db.history[m]? = some other) :
    db'.writesAt other = db.writesAt other := by
  obtain ⟨txn, found, done⟩ := (recorded.iff other).mp (List.mem_of_getElem? isCommit)
  rw [writesAt_of_found found, writesAt_of_found (effect.committed_stays found done)]

/-- **One step** leaves a held key to its transaction. -/
theorem Alone.effect (chronicle : Chronicle service effects start db)
    (effect : Effect service admits time db db') {id : Nat} {txn : Txn σ κ ρ S ε α C}
    (found : db.txns[id]? = some txn) (unfinished : txn.status ≠ .aborted) {seen : Nat} {k : κ}
    (held : k ∈ txn.holds) (alone : db.Alone id seen k) : db'.Alone id seen k := by
  intro m other above below isCommit
  have old : ∀ (isOld : db.history[m]? = some other), m < db.place id →
      k ∉ touched σ (db'.writesAt other) := by
    intro isOld before
    rw [effect.writesAt chronicle.recorded isOld]
    exact alone m other above before isOld
  cases effect with
  | begun _ | moved _ _ => exact old isCommit below
  | @committed j committing answer isThere stands ready =>
      rcases Nat.lt_or_ge m db.history.length with earlier | last
      · rw [List.getElem?_append_left earlier] at isCommit
        refine old isCommit ?_
        by_cases member : id ∈ db.history
        · have place : (db.history ++ [j]).idxOf id = db.place id := List.idxOf_append_of_mem member
          exact place ▸ below
        · have place : db.place id = db.history.length := List.idxOf_eq_length member
          exact place ▸ earlier
      · -- the transaction that commits is another one, and does not hold the key
        rw [List.getElem?_append_right last, List.getElem?_singleton] at isCommit
        obtain ⟨-, same⟩ := Option.ite_none_right_eq_some.mp isCommit
        obtain rfl : j = other := Option.some.inj same
        have bound : m < (db.history ++ [j]).idxOf id := below
        have apart : id ≠ j := by
          rintro rfl
          have fresh : id ∉ db.history := by
            intro member
            rw [List.idxOf_append_of_mem member] at bound
            exact absurd (bound.trans (List.idxOf_lt_length_iff.mpr member)) (Nat.not_lt.mpr last)
          rw [List.idxOf_append_of_notMem fresh, List.idxOf_cons_self] at bound
          omega
        have live : txn.live = true := by
          cases status : txn.status with
          | running | checked => simp [Txn.live, status]
          | aborted => exact absurd status unfinished
          | committed =>
              have member : id ∈ db.history := (chronicle.recorded.iff id).mpr ⟨txn, found, status⟩
              rw [List.idxOf_append_of_mem member] at bound
              exact absurd (bound.trans (List.idxOf_lt_length_iff.mpr member)) (Nat.not_lt.mpr last)
        have free := chronicle.exclusive id j txn committing apart found isThere live
          (live_of_ready ready) k held
        have isDone : (db.txns.set j { committing with status := .committed })[j]? =
            some { committing with status := .committed } := by
          rw [getElem?_set_of_found isThere, if_pos rfl]
        rw [writesAt_of_found isDone]
        exact free

/-- **One step** keeps what is guarded. -/
theorem Guarded.effect (guarded : Guarded effects db)
    (chronicle : Chronicle service effects start db)
    (effect : Effect service admits time db db') : Guarded effects db' := by
  intro j t present unfinished
  -- a transaction that stays as it is
  have same : ∀ (old : Txn σ κ ρ S ε α C), db.txns[j]? = some old → old.status ≠ .aborted →
      t.log = old.log → t.snapshot = old.snapshot → t.holds = old.holds →
        Guards effects db' j t := by
    intro old isOld notAborted log snapshot holds
    have guards := guarded j old isOld notAborted
    constructor
    · intro earlier statement shown seen later split k member
      rw [log] at split
      refine Alone.effect chronicle effect isOld notAborted ?_
        (guards.ran earlier statement shown seen later split k member)
      refine chronicle.held isOld split ?_
      rw [touched_append]
      exact List.mem_append_left _ member
    · intro taken isTaken k held
      rw [snapshot] at isTaken
      rw [holds] at held
      exact Alone.effect chronicle effect isOld notAborted held (guards.waiting taken isTaken k held)
  cases effect with
  | begun _ =>
      rcases of_getElem?_append present with ⟨-, rfl⟩ | old
      · refine ⟨fun earlier statement shown seen later split => ?_, fun _ taken => by cases taken⟩
        exact absurd split.symm (by simp [Txn.start])
      · exact same t old unfinished rfl rfl rfl
  | @moved id txn txn' found moves =>
      rcases of_getElem?_set found present with ⟨rfl, rfl⟩ | ⟨-, old⟩
      · have live := moves.live
        have place : (db.replace id t).place id = db.history.length :=
          chronicle.place_of_live found live
        have notAborted : txn.status ≠ .aborted := by
          rintro aborted
          simp [Txn.live, aborted] at live
        have guards := guarded id txn found notAborted
        have step : Effect service admits time db (db.replace id t) := .moved found moves
        have before : ∀ {seen : Nat} {k : κ}, k ∈ txn.holds → db.Alone id seen k →
            (db.replace id t).Alone id seen k := fun held alone =>
          Alone.effect chronicle step found notAborted held alone
        have ran : ∀ earlier statement shown seen later,
            txn.log = earlier ++ .ran statement shown seen :: later →
              ∀ k ∈ touched σ (logged effects earlier), (db.replace id t).Alone id seen k := by
          intro earlier statement shown seen later split k member
          refine before ?_ (guards.ran earlier statement shown seen later split k member)
          refine chronicle.held found split ?_
          rw [touched_append]
          exact List.mem_append_left _ member
        cases moves with
        | clock _ _ =>
            refine ⟨?_, fun snapshot taken k held => before held (guards.waiting snapshot taken k held)⟩
            intro earlier statement shown seen later split k member
            rcases split_snoc split with ⟨-, isClock, -⟩ | ⟨rest, rfl, before⟩
            · cases isClock
            · exact ran earlier statement shown seen rest before k member
        | snapshot _ _ _ =>
            refine ⟨ran, fun snapshot taken k held => ?_⟩
            obtain rfl := Option.some.inj taken
            intro m other above below isCommit
            rw [place] at below
            exact absurd below (Nat.not_lt.mpr above)
        | checked _ _ _ _ _ =>
            exact ⟨ran, fun snapshot taken k held => before held (guards.waiting snapshot taken k held)⟩
        | aborted _ => exact absurd rfl unfinished
        | @performed statement next rows writes running stands result =>
            refine ⟨?_, fun _ taken => by cases taken⟩
            intro earlier other shown seen later split k member
            rcases split_snoc split with ⟨rfl, isLast, -⟩ | ⟨rest, rfl, earlierSplit⟩
            · obtain ⟨-, -, rfl⟩ := Event.ran.inj isLast
              have held : k ∈ txn.holds := by
                rw [Txn.holds, chronicle.writes id txn found]
                exact member
              cases taken : txn.snapshot with
              | none =>
                  intro m other above below isCommit
                  have last : (db.snapshotFor txn).seen = db.history.length := by
                    simp [snapshotFor, taken]
                  rw [place] at below
                  rw [last] at above
                  exact absurd below (Nat.not_lt.mpr above)
              | some snapshot =>
                  have isSeen : (db.snapshotFor txn).seen = snapshot.seen := by
                    simp [snapshotFor, taken]
                  rw [isSeen]
                  exact before held (guards.waiting snapshot taken k held)
            · exact ran earlier other shown seen rest earlierSplit k member
      · exact same t old unfinished rfl rfl rfl
  | @committed id txn answer found stands ready =>
      rcases of_getElem?_set found present with ⟨rfl, rfl⟩ | ⟨-, old⟩
      · have live := live_of_ready ready
        refine same txn found ?_ rfl rfl rfl
        rintro aborted
        simp [Txn.live, aborted] at live
      · exact same t old unfinished rfl rfl rfl

end Db

/-- **In every run** transactions guard the keys that they hold. -/
theorem Service.inductive_guarded {service : Service σ κ ρ S ε α C} {initial : σ → Prop}
    {ok : DbWorld σ κ ρ S ε α C → DbAct C → Prop} {effects : S → List ρ → List (Write κ ρ)}
    {told : S → List ρ → Prop} {Q : C → α → List (Event S ρ) → Prop}
    (tellable : service.Tellable effects) (tells : service.Tells told)
    (programs : ∀ call, Program.Ends told (Q call) [] (service.program call)) :
    ((service.system initial).restrict ok).Inductive fun world =>
      service.Chronicled initial effects told Q world.db ∧ Db.Guarded effects world.db := by
  refine (Service.inductive_chronicled tellable tells programs).strengthen ?_ ?_
  · rintro world ⟨clock, state, -, rfl⟩ id txn found
    cases found
  · intro world act world' chronicled guarded step
    obtain ⟨-, step⟩ := System.restrict_step.mp step
    obtain ⟨start, -, chronicle⟩ := chronicled.chronicle
    cases WorldEffect.of_step step with
    | idle => exact guarded
    | onDb effect _ => exact guarded.effect chronicle effect

end OpsComposer.Foundations
