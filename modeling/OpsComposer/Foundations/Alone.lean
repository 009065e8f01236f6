import OpsComposer.Foundations.DbWorld

/-!
# A unit of work alone

What a program does when no other transaction is under way: each of its statements sees what has
been committed with its own writes, nothing waits, and nothing changes under it
(`Service.Alone`).  The database can take the same steps, so a call that comes to its end alone
can be brought to its commit (`Service.Alone.commits`): what is shown of the sequential meaning of
a program is a possible run of the database.
-/

set_option autoImplicit false

namespace OpsComposer.Foundations

open RowStore

variable {σ κ ρ S ε α C β γ : Type} [DecidableEq κ] [RowStore σ κ ρ]

/-- The program comes to its answer on a committed state, at a time at which the clock stands
still: the writes before it and after it. -/
inductive Service.Alone (service : Service σ κ ρ S ε α C) (time : Nat) (state : σ) :
    List (Write κ ρ) → Program S ρ ε β → β → List (Write κ ρ) → Prop where
  | done {writes : List (Write κ ρ)} {answer : β} :
      Service.Alone service time state writes (.done answer) answer writes
  | clock {writes last : List (Write κ ρ)} {next : Nat → Program S ρ ε β} {answer : β}
      (rest : Service.Alone service time state writes (next time) answer last) :
      Service.Alone service time state writes (.clock next) answer last
  | run {writes added last : List (Write κ ρ)} {statement : S} {rows : List ρ}
      {next : List ρ → Program S ρ ε β} {answer : β}
      (performs : (service.meaning statement (applyAll state writes)).perform service.clash
        (applyAll state writes) (applyAll state writes) = some (rows, added))
      (rest : Service.Alone service time state (writes ++ added) (next rows) answer last) :
      Service.Alone service time state writes (.run statement next) answer last

namespace Service.Alone

variable {service : Service σ κ ρ S ε α C} {time : Nat} {state : σ}
  {writes middle last : List (Write κ ρ)}

/-- **One program after the other.** -/
theorem bind {program : Program S ρ ε β} {next : β → Program S ρ ε γ} {answer : β} {result : γ}
    (first : service.Alone time state writes program answer middle)
    (second : service.Alone time state middle (next answer) result last) :
    service.Alone time state writes (program >>= next) result last := by
  induction first with
  | done => exact second
  | clock _ ih => exact .clock (ih second)
  | run performs _ ih => exact .run performs (ih second)

theorem orFail {error : ε} {value? : Option β} {value : β} (isSome : value? = some value) :
    service.Alone time state writes (Program.orFail error value?) value writes := by
  subst isSome
  exact .done

theorem raiseIf {error : ε} {condition : Bool} (passes : condition = false) :
    service.Alone time state writes (Program.raiseIf error condition) () writes := by
  subst passes
  exact .done

end Service.Alone

/-! ## The run of the database -/

section Runs

variable {service : Service σ κ ρ S ε α C} (initial : σ → Prop)

/-- No transaction is under way. -/
def Db.Quiet (db : Db σ κ ρ S ε α C) : Prop := ∀ txn ∈ db.txns, txn.live = false

/-- The statements of the log have all seen so many commits. -/
def SeesOnly (seen : Nat) (log : List (Event S ρ)) : Prop :=
  ∀ statement rows last, .ran statement rows last ∈ log → last = seen

/-- The actions let no call come in. -/
def NoBegin (actions : List (DbAct C)) : Prop := ∀ call, .onDb (.begin call) ∉ actions

theorem NoBegin.cons {actions : List (DbAct C)} (noBegin : NoBegin actions) {action : DbAct C}
    (other : ∀ call, .onDb (.begin call) ≠ action) : NoBegin (action :: actions) := by
  intro call member
  rcases List.mem_cons.mp member with same | later
  · exact other call same
  · exact noBegin call later

omit [DecidableEq κ] [RowStore σ κ ρ] in
theorem Db.others_last {db : Db σ κ ρ S ε α C} {txn : Txn σ κ ρ S ε α C}
    {old : List (Txn σ κ ρ S ε α C)} (quiet : ∀ txn ∈ old, txn.live = false)
    (txns : db.txns = old ++ [txn]) : db.others old.length = [] := by
  refine List.eq_nil_iff_forall_not_mem.mpr fun other isOther => ?_
  obtain ⟨j, apart, found, live⟩ := Db.mem_others.mp isOther
  rw [txns] at found
  rcases Nat.lt_or_ge j old.length with below | above
  · rw [List.getElem?_append_left below] at found
    rw [quiet other (List.mem_of_getElem? found)] at live
    cases live
  · obtain ⟨bound, -⟩ := List.getElem?_eq_some_iff.mp found
    rw [List.length_append, List.length_singleton] at bound
    omega

/-- The last transaction is the only one under way, and stands at a point of its program. -/
structure Db.StandsAlone (db : Db σ κ ρ S ε α C) (old : List (Txn σ κ ρ S ε α C))
    (txn : Txn σ κ ρ S ε α C) (program : Program S ρ ε α) (writes : List (Write κ ρ)) :
    Prop where
  txns : db.txns = old ++ [txn]
  quiet : ∀ txn ∈ old, txn.live = false
  program : txn.program = program
  writes : txn.writes = writes
  snapshot : txn.snapshot = none
  status : txn.status = .running
  watched : txn.watched = false
  sees : SeesOnly db.history.length txn.log

namespace Db.StandsAlone

variable {db : Db σ κ ρ S ε α C} {old : List (Txn σ κ ρ S ε α C)} {txn txn' : Txn σ κ ρ S ε α C}
  {program : Program S ρ ε α} {writes : List (Write κ ρ)}

omit [DecidableEq κ] [RowStore σ κ ρ] in
theorem found (stands : db.StandsAlone old txn program writes) :
    db.txns[old.length]? = some txn := by
  rw [stands.txns, List.getElem?_append_right le_rfl, Nat.sub_self, List.getElem?_cons_zero]

omit [DecidableEq κ] [RowStore σ κ ρ] in
theorem replaced (stands : db.StandsAlone old txn program writes) :
    (db.replace old.length txn').txns = old ++ [txn'] := by
  show db.txns.set old.length txn' = _
  rw [stands.txns, List.set_append_right _ _ le_rfl, Nat.sub_self, List.set_cons_zero]

/-- One step of the transaction. -/
theorem advance (stands : db.StandsAlone old txn program writes) {action : DbAction C}
    (moves : db.move service old.length txn action = some txn') :
    Db.step.advance service db old.length action = some (db.replace old.length txn') := by
  rw [Db.step.advance, stands.found, Option.bind_some, if_pos stands.status, moves]
  rfl

/-- The transaction goes on to another point, in the same place. -/
theorem moved (stands : db.StandsAlone old txn program writes) {action : DbAction C}
    (moves : db.move service old.length txn action = some txn') (time : Nat)
    (step : db.step service (action.at time) = Db.step.advance service db old.length action) :
    (service.system initial).step ⟨time, db⟩ (.onDb action) =
      some ⟨time, db.replace old.length txn'⟩ := by
  show (db.step service (action.at time)).map _ = _
  rw [step, stands.advance moves]
  rfl

/-- It reads the clock. -/
theorem clock (service : Service σ κ ρ S ε α C) {next : Nat → Program S ρ ε α} (time : Nat)
    (stands : db.StandsAlone old txn (.clock next) writes) :
    ∃ db' txn', (service.system initial).step ⟨time, db⟩ (.onDb (.clock old.length time)) =
        some ⟨time, db'⟩ ∧ db'.state = db.state ∧ db'.history = db.history ∧
          txn'.call = txn.call ∧ db'.StandsAlone old txn' (next time) writes := by
  have moves : db.move service old.length txn (.clock old.length time) =
      some { txn with program := next time, log := txn.log ++ [.clock time] } := by
    rw [Db.move, stands.program]
  refine ⟨_, { txn with program := next time, log := txn.log ++ [.clock time] },
    stands.moved initial moves time rfl, rfl, rfl, rfl, ?_⟩
  refine { stands with txns := stands.replaced, program := rfl, sees := ?_ }
  intro statement rows seen ran
  rcases List.mem_append.mp ran with before | wrong
  · exact stands.sees statement rows seen before
  · cases List.mem_singleton.mp wrong

/-- It executes a statement. -/
theorem perform (unwatched : ∀ statement state, (service.meaning statement state).isWatched = false)
    (time : Nat) {statement : S} {next : List ρ → Program S ρ ε α} {rows : List ρ}
    {added : List (Write κ ρ)} (stands : db.StandsAlone old txn (.run statement next) writes)
    (performs : (service.meaning statement (applyAll db.state writes)).perform service.clash
      (applyAll db.state writes) (applyAll db.state writes) = some (rows, added)) :
    ∃ db' txn', (service.system initial).step ⟨time, db⟩ (.onDb (.perform old.length)) =
        some ⟨time, db'⟩ ∧ db'.state = db.state ∧ db'.history = db.history ∧
          txn'.call = txn.call ∧ db'.StandsAlone old txn' (next rows) (writes ++ added) := by
  have snapshot : db.snapshotFor txn = ⟨db.state, db.history.length⟩ := by
    rw [Db.snapshotFor, stands.snapshot, Option.getD_none]
  have view : txn.view db.state = applyAll db.state writes := by rw [Txn.view, stands.writes]
  have result : db.performed service old.length txn statement = some (some (rows, added)) := by
    rw [Db.performed, Db.others_last stands.quiet stands.txns, snapshot, view, performs]
    rfl
  have moves : db.move service old.length txn (.perform old.length) =
      some (db.afterStatement service txn statement next rows added) := by
    rw [Db.move, stands.program]
    simp only [result, Option.map_some]
  refine ⟨_, db.afterStatement service txn statement next rows added,
    stands.moved initial moves time rfl, rfl, rfl, rfl, ?_⟩
  constructor
  · exact stands.replaced
  · exact stands.quiet
  · rfl
  · show txn.writes ++ added = _
    rw [stands.writes]
  · rfl
  · exact stands.status
  · show (txn.watched || _) = false
    rw [stands.watched, unwatched]
    rfl
  · intro other shown seen ran
    rcases List.mem_append.mp ran with before | last
    · exact stands.sees other shown seen before
    · obtain ⟨-, -, rfl⟩ := Event.ran.inj (List.mem_singleton.mp last)
      rw [snapshot]
      rfl

end Db.StandsAlone

/-- **A program that comes to its answer alone** can be run to it. -/
theorem Service.Alone.exec
    (unwatched : ∀ statement state, (service.meaning statement state).isWatched = false)
    {time : Nat} {state : σ} {writes last : List (Write κ ρ)} {program : Program S ρ ε α}
    {answer : α} (alone : service.Alone time state writes program answer last)
    {db : Db σ κ ρ S ε α C} {old : List (Txn σ κ ρ S ε α C)} {txn : Txn σ κ ρ S ε α C}
    (here : db.state = state) (stands : db.StandsAlone old txn program writes) :
    ∃ actions db' txn', (service.system initial).exec ⟨time, db⟩ actions = some ⟨time, db'⟩ ∧
      NoBegin actions ∧ db'.state = state ∧ db'.history = db.history ∧ txn'.call = txn.call ∧
        db'.StandsAlone old txn' (.done answer) last := by
  induction alone generalizing db txn with
  | done => exact ⟨[], db, txn, rfl, fun _ => List.not_mem_nil, here, rfl, rfl, stands⟩
  | clock rest ih =>
      obtain ⟨middle, first, stepped, same, history, call, after⟩ :=
        stands.clock initial service time
      obtain ⟨actions, db', txn', done, noBegin, same', history', call', after'⟩ :=
        ih (same.trans here) after
      refine ⟨.onDb (.clock old.length time) :: actions, db', txn', ?_, ?_, same',
        history'.trans history, call'.trans call, after'⟩
      · rw [System.exec, stepped]
        exact done
      · exact noBegin.cons fun _ wrong => by cases wrong
  | run performs rest ih =>
      subst here
      obtain ⟨middle, first, stepped, same, history, call, after⟩ :=
        stands.perform initial unwatched time performs
      obtain ⟨actions, db', txn', done, noBegin, same', history', call', after'⟩ :=
        ih same after
      refine ⟨.onDb (.perform old.length) :: actions, db', txn', ?_, ?_, same',
        history'.trans history, call'.trans call, after'⟩
      · rw [System.exec, stepped]
        exact done
      · exact noBegin.cons fun _ wrong => by cases wrong

/-- What a call that has come to its end alone leaves. -/
structure CommittedAlone (db db' : Db σ κ ρ S ε α C) (call : C) (answer : α)
    (last : List (Write κ ρ)) (txn : Txn σ κ ρ S ε α C) : Prop where
  state : db'.state = applyAll db.state last
  txns : db'.txns = db.txns ++ [txn]
  history : db'.history = db.history ++ [db.txns.length]
  call : txn.call = call
  program : txn.program = .done answer
  status : txn.status = .committed
  sees : SeesOnly db.history.length txn.log

/-- **A call that comes to its answer alone** can be brought to its commit, where no other
transaction is under way, and no other call comes in for it. -/
theorem Service.Alone.commits
    (unwatched : ∀ statement state, (service.meaning statement state).isWatched = false)
    {time : Nat} {last : List (Write κ ρ)} (call : C) {answer : α} {db : Db σ κ ρ S ε α C}
    (quiet : db.Quiet) (alone : service.Alone time db.state [] (service.program call) answer last) :
    ∃ actions db' txn, (service.system initial).exec ⟨time, db⟩ (.onDb (.begin call) :: actions) =
        some ⟨time, db'⟩ ∧ NoBegin actions ∧ CommittedAlone db db' call answer last txn := by
  have stands : ({ db with txns := db.txns ++ [Txn.start service call] } :
      Db σ κ ρ S ε α C).StandsAlone db.txns (Txn.start service call) (service.program call) [] :=
    ⟨rfl, quiet, rfl, rfl, rfl, rfl, rfl, fun _ _ _ ran => nomatch ran⟩
  have here : ({ db with txns := db.txns ++ [Txn.start service call] } :
      Db σ κ ρ S ε α C).state = db.state := rfl
  obtain ⟨actions, db', txn, done, noBegin, state, history, isCall, after⟩ :=
    alone.exec initial unwatched here stands
  have commits : db'.commit db.txns.length txn =
      some { state := txn.view db'.state
             txns := db'.txns.set db.txns.length { txn with status := .committed }
             history := db'.history ++ [db.txns.length] } := by
    rw [Db.commit, after.program]
    exact if_pos (.inr ⟨after.status, after.watched⟩)
  have stepped : (service.system initial).step ⟨time, db'⟩ (.onDb (.commit db.txns.length)) =
      some ⟨time, { state := txn.view db'.state
                    txns := db'.txns.set db.txns.length { txn with status := .committed }
                    history := db'.history ++ [db.txns.length] }⟩ := by
    show ((db'.txns[db.txns.length]?).bind (db'.commit db.txns.length)).map _ = _
    rw [after.found, Option.bind_some, commits]
    rfl
  have begun : (service.system initial).step ⟨time, db⟩ (.onDb (.begin call)) =
      some ⟨time, { db with txns := db.txns ++ [Txn.start service call] }⟩ := rfl
  refine ⟨actions ++ [.onDb (.commit db.txns.length)],
    { state := txn.view db'.state
      txns := db'.txns.set db.txns.length { txn with status := .committed }
      history := db'.history ++ [db.txns.length] },
    { txn with status := .committed }, ?_, ?_, ?_⟩
  · rw [System.exec, begun, Option.bind_some, System.exec_append, done, Option.bind_some,
      System.exec, stepped]
    rfl
  · intro other member
    rcases List.mem_append.mp member with before | wrong
    · exact noBegin other before
    · cases List.mem_singleton.mp wrong
  · refine ⟨?_, after.replaced, ?_, isCall, after.program, rfl, ?_⟩
    · show txn.view db'.state = _
      rw [Txn.view, after.writes, state]
    · show db'.history ++ _ = _
      rw [history]
    · exact history ▸ after.sees

end Runs

end OpsComposer.Foundations
