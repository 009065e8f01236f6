import OpsComposer.Foundations.Chronicle

/-!
# The commits of a run, one after the other

An account of a run is its chronicle with what the logs say and with what the runs take for
granted of every commit.  It is kept by every step (`Service.Account.step`), so that a run can
be followed on one sequence of committed states, and what each commit keeps holds from one
place of that sequence to every later one (`Service.Account.induct`).
-/

set_option autoImplicit false

namespace OpsComposer.Foundations

open RowStore

variable {σ κ ρ S ε α C : Type} [DecidableEq κ] [RowStore σ κ ρ]

/-- The chronicle of a run from a state on, in which every commit was admitted. -/
structure Service.Account (service : Service σ κ ρ S ε α C)
    (effects : S → List ρ → List (Write κ ρ)) (told : S → List ρ → Prop)
    (Q : C → α → List (Event S ρ) → Prop) (admitted : C → List (Event S ρ) → σ → Prop)
    (start : σ) (db : Db σ κ ρ S ε α C) : Prop where
  chronicle : Db.Chronicle service effects start db
  points : Db.AtPoints told
    (fun call log program => ∀ answer, program = .done answer → Q call answer log) db
  admits : ∀ (i id : Nat) (txn : Txn σ κ ρ S ε α C), db.history[i]? = some id →
    db.txns[id]? = some txn → admitted txn.call txn.log (db.stateAt start i)

/-- What is known of one commit. -/
structure Service.Committed (service : Service σ κ ρ S ε α C)
    (effects : S → List ρ → List (Write κ ρ)) (Q : C → α → List (Event S ρ) → Prop)
    (admitted : C → List (Event S ρ) → σ → Prop) (start : σ) (db : Db σ κ ρ S ε α C) (i id : Nat)
    (txn : Txn σ κ ρ S ε α C) (answer : α) : Prop where
  next : db.history[i]? = some id
  found : db.txns[id]? = some txn
  done : txn.status = .committed
  stands : txn.program = .done answer
  outcome : Q txn.call answer txn.log
  plays : Db.Plays service effects start db i [] txn.log
  admits : admitted txn.call txn.log (db.stateAt start i)
  after : db.stateAt start (i + 1) = applyAll (db.stateAt start i) (logged effects txn.log)

variable {admitted : C → List (Event S ρ) → σ → Prop} {Q : C → α → List (Event S ρ) → Prop}
  {db : Db σ κ ρ S ε α C} {earlier later : List (Event S ρ)} {i id : Nat} {P : Option ρ → Prop}
  {effects : S → List ρ → List (Write κ ρ)} {service : Service σ κ ρ S ε α C}
  {txn : Txn σ κ ρ S ε α C} {answer : α} {k : κ} {start : σ}

/-- **A commit** keeps what each statement of its log keeps of the row under a key. -/
theorem Service.Committed.keeps
    (committed : service.Committed effects Q admitted start db i id txn answer)
    (kept : ∀ statement shown seen, .ran statement shown seen ∈ txn.log → ∀ snapshot old? new?,
      (∀ row, old? = some row → key σ row = k) → (∀ row, new? = some row → key σ row = k) →
        Command.Changes (service.meaning statement snapshot) old? new? → P old? → P new?)
    (here : P (lookup (db.stateAt start i) k)) : P (lookup (db.stateAt start (i + 1)) k) := by
  have after := committed.plays.keeps kept here
  rw [List.nil_append, ← committed.after] at after
  exact after

/-- **Statements in the middle of a commit** keep what each of them keeps of the row under a
key. -/
theorem Service.Committed.between
    {middle : List (Event S ρ)}
    (committed : service.Committed effects Q admitted start db i id txn answer)
    (split : txn.log = earlier ++ middle ++ later)
    (kept : ∀ statement shown seen, .ran statement shown seen ∈ middle → ∀ snapshot old? new?,
      (∀ row, old? = some row → key σ row = k) → (∀ row, new? = some row → key σ row = k) →
        Command.Changes (service.meaning statement snapshot) old? new? → P old? → P new?)
    (here : P (lookup (applyAll (db.stateAt start i) (logged effects earlier)) k)) :
    P (lookup (applyAll (db.stateAt start i) (logged effects (earlier ++ middle))) k) := by
  have plays := committed.plays
  rw [split] at plays
  rw [logged_append]
  exact (Db.plays_append.mp (Db.plays_append.mp plays).1).2.keeps kept here

/-- The last statements of a commit. -/
theorem Service.Committed.onwards
    (committed : service.Committed effects Q admitted start db i id txn answer)
    (split : txn.log = earlier ++ later)
    (kept : ∀ statement shown seen, .ran statement shown seen ∈ later → ∀ snapshot old? new?,
      (∀ row, old? = some row → key σ row = k) → (∀ row, new? = some row → key σ row = k) →
        Command.Changes (service.meaning statement snapshot) old? new? → P old? → P new?)
    (here : P (lookup (applyAll (db.stateAt start i) (logged effects earlier)) k)) :
    P (lookup (db.stateAt start (i + 1)) k) := by
  have whole : txn.log = earlier ++ later ++ [] := split.trans (List.append_nil _).symm
  rw [committed.after, split]
  exact committed.between whole kept here

/-- **A row that a statement has put** is there after the commit when the later statements leave
it. -/
theorem Service.Committed.put_stays {statement : S}
    {shown : List ρ} {seen : Nat} {row : ρ}
    (committed : service.Committed effects Q admitted start db i id txn answer)
    (split : txn.log = earlier ++ .ran statement shown seen :: later)
    (puts : effects statement shown = [.put row])
    (kept : ∀ other shown seen, .ran other shown seen ∈ later → ∀ snapshot new?,
      (∀ row', new? = some row' → key σ row' = key σ row) →
        Command.Changes (service.meaning other snapshot) (some row) new? → new? = some row) :
    lookup (db.stateAt start (i + 1)) (key σ row) = some row := by
  have split' : txn.log = (earlier ++ [.ran statement shown seen]) ++ later := by
    rw [split, List.append_assoc, List.singleton_append]
  refine committed.onwards (P := (· = some row)) split' ?_ ?_
  · rintro other shown' seen' ran snapshot old? new? - isNew change rfl
    exact kept other shown' seen' ran snapshot new? isNew change
  · rw [logged_append, logged_ran, logged_nil, List.append_nil, puts, applyAll_append,
      applyAll_cons, applyAll_nil, lookup_apply]
    exact if_pos rfl

namespace Service.Account

variable {service : Service σ κ ρ S ε α C} {effects : S → List ρ → List (Write κ ρ)}
  {told : S → List ρ → Prop} {Q : C → α → List (Event S ρ) → Prop}
  {admitted : C → List (Event S ρ) → σ → Prop} {start : σ} {db : Db σ κ ρ S ε α C}

/-- The commit after `i` others. -/
theorem commit (account : service.Account effects told Q admitted start db) {i : Nat}
    (bound : i < db.history.length) :
    ∃ id txn answer, service.Committed effects Q admitted start db i id txn answer := by
  have next := List.getElem?_eq_getElem bound
  obtain ⟨txn, found, done⟩ := account.chronicle.txn_of_history next
  obtain ⟨answer, stands, outcome⟩ := account.chronicle.outcome account.points found done
  refine ⟨_, txn, answer, next, found, done, stands, outcome,
    account.chronicle.plays next found done, account.admits i _ txn next found, ?_⟩
  rw [Db.Chronicle.stateAt_commit next found, Txn.view, account.chronicle.writes _ txn found]

/-- **What every commit keeps** holds in every later committed state. -/
theorem induct (account : service.Account effects told Q admitted start db) {P : σ → Prop}
    {n m : Nat} (le : n ≤ m) (bound : m ≤ db.history.length) (here : P (db.stateAt start n))
    (kept : ∀ (i id : Nat) (txn : Txn σ κ ρ S ε α C) (answer : α), n ≤ i → i < m →
      service.Committed effects Q admitted start db i id txn answer → P (db.stateAt start i) →
        P (applyAll (db.stateAt start i) (logged effects txn.log))) : P (db.stateAt start m) := by
  induction m, le using Nat.le_induction with
  | base => exact here
  | succ m le ih =>
      have before := ih (Nat.le_of_succ_le bound) fun i id txn answer above below =>
        kept i id txn answer above (Nat.lt_succ_of_lt below)
      obtain ⟨id, txn, answer, committed⟩ := account.commit (Nat.lt_of_succ_le bound)
      rw [committed.after]
      exact kept m id txn answer le (Nat.lt_succ_self m) committed before

section Runs

variable {initial : σ → Prop} {ok : DbWorld σ κ ρ S ε α C → DbAct C → Prop}
  {world next later : DbWorld σ κ ρ S ε α C}

/-- **Every step** keeps the account. -/
theorem step (account : service.Account effects told Q admitted start world.db)
    (tellable : service.Tellable effects) (tells : service.Tells told)
    (programs : ∀ call, Program.Ends told (Q call) [] (service.program call))
    (commits : ∀ (world : DbWorld σ κ ρ S ε α C) (id : Nat) (txn : Txn σ κ ρ S ε α C),
      ok world (.onDb (.commit id)) → world.db.txns[id]? = some txn →
        admitted txn.call txn.log world.db.state)
    {act : DbAct C} (step : ((service.system initial).restrict ok).step world act = some next) :
    service.Account effects told Q admitted start next.db := by
  obtain ⟨allowed, step⟩ := System.restrict_step.mp step
  cases WorldEffect.of_step step with
  | idle => exact account
  | @onDb action db effect isCommit =>
      refine ⟨account.chronicle.effect tellable effect, account.points.effect tells programs effect,
        fun i id txn isNext found => ?_⟩
      have old : ∀ (isOld : world.db.history[i]? = some id),
          admitted txn.call txn.log (db.stateAt start i) := by
        intro isOld
        obtain ⟨bound, -⟩ := List.getElem?_eq_some_iff.mp isOld
        obtain ⟨txn', found', done⟩ := account.chronicle.txn_of_history isOld
        obtain rfl : txn' = txn :=
          Option.some.inj ((effect.committed_stays found' done).symm.trans found)
        rw [effect.stateAt start account.chronicle.recorded bound.le]
        exact account.admits i id txn' isOld found'
      have present : db.stateAt start world.db.history.length = world.db.state :=
        (effect.stateAt start account.chronicle.recorded le_rfl).trans
          account.chronicle.present.symm
      cases effect with
      | begun _ | moved _ _ => exact old isNext
      | @committed id' txn' answer found' stands ready =>
          rcases Nat.lt_or_ge i world.db.history.length with below | above
          · rw [List.getElem?_append_left below] at isNext
            exact old isNext
          · rw [List.getElem?_append_right above, List.getElem?_singleton] at isNext
            obtain ⟨last, same⟩ := Option.ite_none_right_eq_some.mp isNext
            obtain rfl : id' = id := Option.some.inj same
            obtain rfl : i = world.db.history.length := by omega
            rcases Db.of_getElem?_set found' found with ⟨-, rfl⟩ | ⟨apart, -⟩
            · rw [present]
              exact commits world id' txn' (isCommit id' rfl ▸ allowed) found'
            · exact absurd rfl apart

/-- The account at the start of a run is one at its end. -/
theorem leads (account : service.Account effects told Q admitted start world.db)
    (tellable : service.Tellable effects) (tells : service.Tells told)
    (programs : ∀ call, Program.Ends told (Q call) [] (service.program call))
    (commits : ∀ (world : DbWorld σ κ ρ S ε α C) (id : Nat) (txn : Txn σ κ ρ S ε α C),
      ok world (.onDb (.commit id)) → world.db.txns[id]? = some txn →
        admitted txn.call txn.log world.db.state)
    (run : ((service.system initial).restrict ok).Leads world later) :
    service.Account effects told Q admitted start later.db := by
  obtain ⟨actions, trace⟩ := run
  induction trace with
  | refl => exact account
  | tail _ step ih => exact ih.step tellable tells programs commits step

/-- **Every reachable state** has an account. -/
theorem of_reachable (tellable : service.Tellable effects) (tells : service.Tells told)
    (programs : ∀ call, Program.Ends told (Q call) [] (service.program call))
    (commits : ∀ (world : DbWorld σ κ ρ S ε α C) (id : Nat) (txn : Txn σ κ ρ S ε α C),
      ok world (.onDb (.commit id)) → world.db.txns[id]? = some txn →
        admitted txn.call txn.log world.db.state)
    (reached : ((service.system initial).restrict ok).Reachable world) :
    ∃ start, initial start ∧ service.Account effects told Q admitted start world.db := by
  obtain ⟨first, ⟨clock, state, isInitial, rfl⟩, run⟩ := reached
  refine ⟨state, isInitial, leads ⟨.initial state, ?_, ?_⟩ tellable tells programs commits run⟩
  · exact fun _ _ found => by simp at found
  · exact fun _ _ _ isNext => by simp at isNext

/-- The present is the last of the committed states, and the past of a run is part of it. -/
theorem past (account : service.Account effects told Q admitted start world.db)
    (run : ((service.system initial).restrict ok).Leads world later) :
    world.db.history.length ≤ later.db.history.length ∧
      world.db.state = later.db.stateAt start world.db.history.length := by
  obtain ⟨grown, past⟩ := Service.past_of_leads start account.chronicle.recorded run.of_restrict
  exact ⟨grown.length_le, account.chronicle.present.trans (past _ le_rfl).symm⟩

end Runs

end Service.Account

end OpsComposer.Foundations
