import OpsComposer.Foundations.DbWorld

/-!
# Calls that wait for each other

A caller that makes one call after the other begins the second when the first has ended.  Which
calls wait for which, and which never come in after which, is what a run takes for granted of
its callers (`CallOrder`).  In such a run the transactions of calls that wait read the clock, and
commit, in the order in which they have come in (`Db.InTurn`).
-/

set_option autoImplicit false

namespace OpsComposer.Foundations

variable {σ κ ρ S ε α C : Type}

/-- What callers keep to. -/
structure CallOrder (C : Type) where
  /-- The second call comes in when the first has ended. -/
  waits : C → C → Prop
  /-- The second call does not come in after the first. -/
  late : C → C → Prop

/-- The call may come in now. -/
def CallOrder.Admits (order : CallOrder C) (db : Db σ κ ρ S ε α C) (call : C) : Prop :=
  ∀ txn ∈ db.txns, ¬ order.late txn.call call ∧ (order.waits txn.call call → txn.live = false)

namespace Db

/-- All that the transaction has seen, or sees next, is later than a place of the history. -/
structure SeesPast (place : Nat) (txn : Txn σ κ ρ S ε α C) : Prop where
  log : ∀ statement rows seen, .ran statement rows seen ∈ txn.log → place < seen
  snapshot : ∀ snapshot, txn.snapshot = some snapshot → place < snapshot.seen

/-- The second of two transactions has come in when the first had ended. -/
structure Waited (db : Db σ κ ρ S ε α C) (i j : Nat) (t t' : Txn σ κ ρ S ε α C) : Prop where
  ended : t.live = false
  read : ∀ now now', .clock now ∈ t.log → .clock now' ∈ t'.log → now ≤ now'
  committed : ∀ p q : Nat, db.history[p]? = some i → db.history[q]? = some j → p < q
  sees : ∀ p : Nat, db.history[p]? = some i → SeesPast p t'

/-- The transactions have come in as their callers keep to. -/
structure InTurn (order : CallOrder C) (db : Db σ κ ρ S ε α C) : Prop where
  early : ∀ (i j : Nat) (t t' : Txn σ κ ρ S ε α C), i < j → db.txns[i]? = some t →
    db.txns[j]? = some t' → ¬ order.late t.call t'.call
  waited : ∀ (i j : Nat) (t t' : Txn σ κ ρ S ε α C), i < j → db.txns[i]? = some t →
    db.txns[j]? = some t' → order.waits t.call t'.call → Waited db i j t t'

/-- A commit that the call of a later one has waited for has read an earlier clock, when its own
call has not come in after that one. -/
theorem InTurn.clock_le {db : Db σ κ ρ S ε α C} {order : CallOrder C} (inTurn : InTurn order db)
    {place place' index index' now now' : Nat} {txn txn' : Txn σ κ ρ S ε α C}
    (found : db.txns[index]? = some txn) (found' : db.txns[index']? = some txn')
    (next : db.history[place]? = some index) (next' : db.history[place']? = some index')
    (le : place ≤ place') (apart : index ≠ index') (waits : order.waits txn.call txn'.call)
    (turn : order.late txn'.call txn.call ∨ order.waits txn'.call txn.call)
    (read : .clock now ∈ txn.log) (read' : .clock now' ∈ txn'.log) : now ≤ now' := by
  rcases Nat.lt_or_gt_of_ne apart with before | after
  · exact (inTurn.waited index index' txn txn' before found found' waits).read now now' read read'
  · rcases turn with late | back
    · exact absurd late (inTurn.early index' index txn' txn after found' found)
    · have earlier := (inTurn.waited index' index txn' txn after found' found back).committed
      exact absurd (earlier place' place next' next) (Nat.not_lt.mpr le)

/-- **Nothing in between.** No call of the kind commits between what a statement of another one has
seen and the commit of this one, when such calls wait for each other. -/
theorem InTurn.none_between {db : Db σ κ ρ S ε α C} {order : CallOrder C} (inTurn : InTurn order db)
    (recorded : Recorded db) {place place' index index' seen : Nat} {txn txn' : Txn σ κ ρ S ε α C}
    (found : db.txns[index]? = some txn) (found' : db.txns[index']? = some txn')
    (next : db.history[place]? = some index) (next' : db.history[place']? = some index')
    (waits : order.waits txn.call txn'.call) (back : order.waits txn'.call txn.call) {statement : S}
    {rows : List ρ} (ran : .ran statement rows seen ∈ txn'.log) (since : seen ≤ place) :
    place' ≤ place := by
  by_contra before
  have before : place < place' := Nat.lt_of_not_le before
  rcases Nat.lt_trichotomy index index' with earlier | same | later
  · have sees := (inTurn.waited index index' txn txn' earlier found found' waits).sees place next
    exact absurd (sees.log statement rows seen ran) (Nat.not_lt.mpr since)
  · subst same
    have bound := (List.getElem?_eq_some_iff.mp next).1
    exact before.ne ((List.getElem?_inj bound recorded.nodup).mp (next.trans next'.symm))
  · have order := (inTurn.waited index' index txn' txn later found' found back).committed
    exact absurd (order place' place next' next) (Nat.not_lt.mpr before.le)

variable [DecidableEq κ] [RowStore σ κ ρ] {service : Service σ κ ρ S ε α C} {admits : C → Prop}
  {time : Nat} {db db' : Db σ κ ρ S ε α C} {order : CallOrder C}

/-- A transaction goes on to see what it sees at a later time. -/
theorem SeesPast.moves {place id : Nat} {txn txn' : Txn σ κ ρ S ε α C}
    (sees : SeesPast place txn) (bound : place < db.history.length)
    (moves : Moves service time db id txn txn') : SeesPast place txn' := by
  have snapshot : place < (db.snapshotFor txn).seen := by
    rw [snapshotFor]
    cases taken : txn.snapshot with
    | none => exact bound
    | some snapshot => exact sees.snapshot snapshot taken
  cases moves with
  | clock _ _ =>
      refine ⟨fun statement rows seen ran => ?_, sees.snapshot⟩
      rcases List.mem_append.mp ran with earlier | wrong
      · exact sees.log statement rows seen earlier
      · cases List.mem_singleton.mp wrong
  | snapshot _ _ _ =>
      refine ⟨sees.log, fun snapshot taken => ?_⟩
      obtain rfl := Option.some.inj taken
      exact bound
  | performed _ _ _ =>
      refine ⟨fun statement rows seen ran => ?_, fun _ taken => by cases taken⟩
      rcases List.mem_append.mp ran with earlier | last
      · exact sees.log statement rows seen earlier
      · obtain ⟨-, -, rfl⟩ := Event.ran.inj (List.mem_singleton.mp last)
        exact snapshot
  | checked _ _ _ _ _ | aborted _ => exact ⟨sees.log, sees.snapshot⟩

/-- **One step** keeps the transactions in their order. -/
theorem InTurn.effect (inTurn : InTurn order db) (recorded : Recorded db)
    (readBy : db.ReadBy time) (effect : Effect service admits time db db')
    (allowed : ∀ call, admits call → order.Admits db call) : InTurn order db' := by
  cases effect with
  | @begun call admitted =>
      have allowed := allowed call admitted
      constructor
      · intro i j t t' before present present'
        rcases of_getElem?_append present' with ⟨rfl, rfl⟩ | old'
        · rcases of_getElem?_append present with ⟨rfl, -⟩ | old
          · exact absurd before (lt_irrefl _)
          · exact (allowed t (List.mem_of_getElem? old)).1
        · rcases of_getElem?_append present with ⟨rfl, -⟩ | old
          · exact absurd (before.trans (List.getElem?_eq_some_iff.mp old').1) (lt_irrefl _)
          · exact inTurn.early i j t t' before old old'
      · intro i j t t' before present present' waits
        rcases of_getElem?_append present' with ⟨rfl, rfl⟩ | old'
        · rcases of_getElem?_append present with ⟨rfl, -⟩ | old
          · exact absurd before (lt_irrefl _)
          · refine ⟨(allowed t (List.mem_of_getElem? old)).2 waits, ?_, ?_, fun _ _ => ⟨?_, ?_⟩⟩
            · intro now now' _ read'
              cases read'
            · intro p q _ isCommit
              obtain ⟨txn, found, -⟩ := (recorded.iff _).mp (List.mem_of_getElem? isCommit)
              exact absurd (List.getElem?_eq_some_iff.mp found).1 (lt_irrefl _)
            · exact fun _ _ _ ran => nomatch ran
            · exact fun _ taken => nomatch taken
        · rcases of_getElem?_append present with ⟨rfl, -⟩ | old
          · exact absurd (before.trans (List.getElem?_eq_some_iff.mp old').1) (lt_irrefl _)
          · obtain ⟨ended, read, committed, sees⟩ := inTurn.waited i j t t' before old old' waits
            exact ⟨ended, read, committed, sees⟩
  | @moved id txn txn' found moves =>
      have old : ∀ {j : Nat} {t : Txn σ κ ρ S ε α C}, (db.txns.set id txn')[j]? = some t →
          ∃ t₀, db.txns[j]? = some t₀ ∧ t₀.call = t.call ∧
            (t = t₀ ∨ id = j ∧ t₀ = txn ∧ t = txn') := by
        intro j t present
        rcases of_getElem?_set found present with ⟨rfl, rfl⟩ | ⟨-, old⟩
        · exact ⟨txn, found, moves.call.symm, .inr ⟨rfl, rfl, rfl⟩⟩
        · exact ⟨t, old, rfl, .inl rfl⟩
      constructor
      · intro i j t t' before present present'
        obtain ⟨t₀, isOld, call, -⟩ := old present
        obtain ⟨t₀', isOld', call', -⟩ := old present'
        rw [← call, ← call']
        exact inTurn.early i j t₀ t₀' before isOld isOld'
      · intro i j t t' before present present' waits
        obtain ⟨t₀, isOld, call, same⟩ := old present
        obtain ⟨t₀', isOld', call', same'⟩ := old present'
        rw [← call, ← call'] at waits
        obtain ⟨ended, read, committed, sees⟩ := inTurn.waited i j t₀ t₀' before isOld isOld' waits
        -- the first has ended, so that it is not the one that goes on
        obtain rfl : t = t₀ := by
          rcases same with same | ⟨-, rfl, -⟩
          · exact same
          · rw [moves.live] at ended
            cases ended
        have saw : ∀ p : Nat, db.history[p]? = some i → SeesPast p t' := by
          intro p isCommit
          rcases same' with rfl | ⟨-, rfl, rfl⟩
          · exact sees p isCommit
          · exact (sees p isCommit).moves (List.getElem?_eq_some_iff.mp isCommit).1 moves
        refine ⟨ended, ?_, committed, saw⟩
        rcases same' with rfl | ⟨-, rfl, rfl⟩
        · exact read
        · intro now now' isRead isRead'
          cases moves with
          | clock _ _ =>
              rcases List.mem_append.mp isRead' with earlier | last
              · exact read now now' isRead earlier
              · obtain rfl := Event.clock.inj (List.mem_singleton.mp last)
                exact readBy i t now isOld isRead
          | snapshot _ _ _ | checked _ _ _ _ _ | aborted _ => exact read now now' isRead isRead'
          | performed _ _ _ =>
              rcases List.mem_append.mp isRead' with earlier | last
              · exact read now now' isRead earlier
              · cases List.mem_singleton.mp last
  | @committed id txn answer found stands ready =>
      have old : ∀ {j : Nat} {t : Txn σ κ ρ S ε α C},
          (db.txns.set id { txn with status := .committed })[j]? = some t →
            ∃ t₀, db.txns[j]? = some t₀ ∧ t₀.call = t.call ∧ t.log = t₀.log ∧
              (∀ p, SeesPast p t₀ → SeesPast p t) ∧ (t = t₀ ∧ id ≠ j ∨ id = j ∧ t₀ = txn) := by
        intro j t present
        rcases of_getElem?_set found present with ⟨rfl, rfl⟩ | ⟨apart, old⟩
        · exact ⟨txn, found, rfl, rfl, fun _ sees => ⟨sees.log, sees.snapshot⟩, .inr ⟨rfl, rfl⟩⟩
        · exact ⟨t, old, rfl, rfl, fun _ sees => sees, .inl ⟨rfl, apart⟩⟩
      have before_it : ∀ {p i : Nat}, (db.history ++ [id])[p]? = some i → id ≠ i →
          db.history[p]? = some i := by
        intro p i isCommit apart
        rcases Nat.lt_or_ge p db.history.length with below | above
        · rwa [List.getElem?_append_left below] at isCommit
        · rw [List.getElem?_append_right above, List.getElem?_singleton] at isCommit
          obtain ⟨-, same⟩ := Option.ite_none_right_eq_some.mp isCommit
          exact absurd (Option.some.inj same) apart
      constructor
      · intro i j t t' before present present'
        obtain ⟨t₀, isOld, call, -⟩ := old present
        obtain ⟨t₀', isOld', call', -⟩ := old present'
        rw [← call, ← call']
        exact inTurn.early i j t₀ t₀' before isOld isOld'
      · intro i j t t' before present present' waits
        obtain ⟨t₀, isOld, call, -, -, same⟩ := old present
        obtain ⟨t₀', isOld', call', log', saw, -⟩ := old present'
        rw [← call, ← call'] at waits
        obtain ⟨ended, read, committed, sees⟩ := inTurn.waited i j t₀ t₀' before isOld isOld' waits
        obtain ⟨rfl, apart⟩ : t = t₀ ∧ id ≠ i := by
          rcases same with same | ⟨-, rfl⟩
          · exact same
          · rw [live_of_ready ready] at ended
            cases ended
        refine ⟨ended, ?_, ?_, fun p isCommit => saw p (sees p (before_it isCommit apart))⟩
        · rw [log']
          exact read
        · intro p q isCommit isCommit'
          have first := before_it isCommit apart
          rcases Nat.lt_or_ge q db.history.length with below | above
          · rw [List.getElem?_append_left below] at isCommit'
            exact committed p q first isCommit'
          · exact (List.getElem?_eq_some_iff.mp first).1.trans_le above

end Db

/-! ## In every run -/

/-- The transactions of a world are in their order. -/
structure DbWorld.Ordered [DecidableEq κ] [RowStore σ κ ρ] (order : CallOrder C)
    (world : DbWorld σ κ ρ S ε α C) : Prop where
  recorded : Db.Recorded world.db
  readBy : world.db.ReadBy world.clock
  inTurn : Db.InTurn order world.db

/-- **In every run** whose calls come in as they are allowed to. -/
theorem Service.inductive_ordered [DecidableEq κ] [RowStore σ κ ρ]
    {service : Service σ κ ρ S ε α C} {initial : σ → Prop}
    {ok : DbWorld σ κ ρ S ε α C → DbAct C → Prop} {order : CallOrder C}
    (allows : ∀ (world : DbWorld σ κ ρ S ε α C) (call : C), ok world (.onDb (.begin call)) →
      order.Admits world.db call) :
    ((service.system initial).restrict ok).Inductive fun world => world.Ordered order where
  initial := by
    rintro world ⟨clock, state, -, rfl⟩
    exact ⟨⟨List.nodup_nil, fun id => by simp⟩, fun _ _ _ found => by simp at found,
      ⟨fun _ _ _ _ _ found => by simp at found, fun _ _ _ _ _ found => by simp at found⟩⟩
  preserved world act world' ordered step := by
    obtain ⟨allowed, step⟩ := System.restrict_step.mp step
    obtain ⟨recorded, readBy, inTurn⟩ := ordered
    cases WorldEffect.of_step step with
    | idle =>
        refine ⟨recorded, fun id txn now found read => ?_, inTurn⟩
        exact (readBy id txn now found read).trans (Nat.le_add_right _ _)
    | onDb effect _ =>
        refine ⟨recorded.effect effect, readBy.effect effect,
          inTurn.effect recorded readBy effect ?_⟩
        intro call isBegin
        subst isBegin
        exact allows world call allowed

end OpsComposer.Foundations
