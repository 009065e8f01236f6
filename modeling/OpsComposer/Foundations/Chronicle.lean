import OpsComposer.Foundations.DbWorld

/-!
# The chronicle of a database

The committed transactions form a sequence, and with it the committed states
(`Db.stateAt`): each is the one before it with the writes of one transaction applied.
When the rows that a statement returns tell what it has written, the logs tell all
writes, and every logged statement has its place in that sequence (`RanAt`): its snapshot
is the committed state at one place, and it has looked at the rows of the committed state
at a later one.  Under the keys that its transaction has touched nothing changes from there
until the transaction commits.

So a property of all runs becomes a property of sequences of committed states, with one
log for every step.
-/

set_option autoImplicit false

namespace OpsComposer.Foundations

open RowStore

variable {σ κ ρ S ε α C : Type} [DecidableEq κ] [RowStore σ κ ρ]

/-! ## Logs that tell the writes -/

/-- The rows that a statement returns tell what it has written. -/
def Service.Tellable (service : Service σ κ ρ S ε α C) (effects : S → List ρ → List (Write κ ρ)) :
    Prop :=
  ∀ statement snapshot current shown writes,
    (service.meaning statement snapshot).perform service.clash snapshot current =
      some (shown, writes) → writes = effects statement shown

/-- What the statements of a log have written. -/
def logged (effects : S → List ρ → List (Write κ ρ)) (log : List (Event S ρ)) :
    List (Write κ ρ) :=
  log.flatMap fun
    | .clock _ => []
    | .ran statement shown _ => effects statement shown

section Logged

variable {effects : S → List ρ → List (Write κ ρ)}

omit [DecidableEq κ] in
@[simp] theorem logged_nil : logged effects ([] : List (Event S ρ)) = [] := rfl

variable {log : List (Event S ρ)}

omit [DecidableEq κ] in
@[simp] theorem logged_append {later : List (Event S ρ)} :
    logged effects (log ++ later) = logged effects log ++ logged effects later :=
  List.flatMap_append

omit [DecidableEq κ] in
@[simp] theorem logged_clock {now : Nat} :
    logged effects (.clock now :: log) = logged effects log := rfl

omit [DecidableEq κ] in
@[simp] theorem logged_ran {statement : S} {shown : List ρ} {seen : Nat} :
    logged effects (.ran statement shown seen :: log) =
      effects statement shown ++ logged effects log := rfl

omit [DecidableEq κ] in
theorem mem_logged {write : Write κ ρ} :
    write ∈ logged effects log ↔
      ∃ statement shown seen,
        .ran statement shown seen ∈ log ∧ write ∈ effects statement shown := by
  rw [logged, List.mem_flatMap]
  constructor
  · rintro ⟨event, member, isWrite⟩
    cases event with
    | clock now => cases isWrite
    | ran statement shown seen => exact ⟨statement, shown, seen, member, isWrite⟩
  · rintro ⟨statement, shown, seen, member, isWrite⟩
    exact ⟨_, member, isWrite⟩

end Logged

/-- An event splits a longer log where it split the shorter one, or it is the new one. -/
theorem split_snoc {log earlier later : List (Event S ρ)} {event last : Event S ρ}
    (split : log ++ [last] = earlier ++ event :: later) :
    (log = earlier ∧ last = event ∧ later = []) ∨
      ∃ rest, later = rest ++ [last] ∧ log = earlier ++ event :: rest := by
  rcases List.eq_nil_or_concat later with rfl | ⟨rest, x, rfl⟩
  · obtain ⟨rfl, same⟩ := List.append_inj' split rfl
    exact .inl ⟨rfl, List.singleton_inj.mp same, rfl⟩
  · rw [List.concat_eq_append, ← List.cons_append, ← List.append_assoc] at split
    obtain ⟨same, isLast⟩ := List.append_inj' split rfl
    exact .inr ⟨rest, by rw [List.concat_eq_append, List.singleton_inj.mp isLast], same⟩

namespace Db

/-! ## The sequence of committed states -/

/-- The writes of the transaction at a position. -/
def writesAt (db : Db σ κ ρ S ε α C) (id : Nat) : List (Write κ ρ) :=
  (db.txns[id]?.map Txn.writes).getD []

/-- The committed state after the first `n` commits. -/
def stateAt (start : σ) (db : Db σ κ ρ S ε α C) (n : Nat) : σ :=
  (db.history.take n).foldl (fun state id => applyAll state (db.writesAt id)) start

section StateAt

variable {db : Db σ κ ρ S ε α C} {start : σ}

omit [DecidableEq κ] [RowStore σ κ ρ] in
theorem writesAt_of_found {id : Nat} {txn : Txn σ κ ρ S ε α C} (found : db.txns[id]? = some txn) :
    db.writesAt id = txn.writes := by
  simp [writesAt, found]

@[simp] theorem stateAt_zero : db.stateAt start 0 = start := rfl

theorem stateAt_succ {n id : Nat} (next : db.history[n]? = some id) :
    db.stateAt start (n + 1) = applyAll (db.stateAt start n) (db.writesAt id) := by
  simp [stateAt, List.take_add_one, next]

/-- A property of the committed states that is lost has been lost with one commit. -/
theorem exists_loss {P : σ → Prop} {n m : Nat} (before : P (db.stateAt start n)) (le : n ≤ m)
    (bound : m ≤ db.history.length) (after : ¬ P (db.stateAt start m)) :
    ∃ i id, n ≤ i ∧ i < m ∧ db.history[i]? = some id ∧ P (db.stateAt start i) ∧
      ¬ P (db.stateAt start (i + 1)) := by
  induction m, le using Nat.le_induction with
  | base => exact absurd before after
  | succ m le ih =>
      by_cases holds : P (db.stateAt start m)
      · exact ⟨m, db.history[m], le, Nat.lt_succ_self m, List.getElem?_eq_getElem bound, holds,
          after⟩
      · obtain ⟨i, id, above, below, rest⟩ := ih (Nat.le_of_succ_le bound) holds
        exact ⟨i, id, above, Nat.lt_succ_of_lt below, rest⟩

end StateAt

section Effect

variable {service : Service σ κ ρ S ε α C} {admits : C → Prop} {time : Nat}
  {db db' : Db σ κ ρ S ε α C}

theorem Effect.extends (effect : Effect service admits time db db') :
    db.history <+: db'.history := by
  cases effect with
  | begun _ | moved _ _ => exact List.prefix_rfl
  | committed _ _ _ => exact List.prefix_append _ _

/-- The past does not change. -/
theorem Effect.stateAt (start : σ) (recorded : Recorded db)
    (effect : Effect service admits time db db') {n : Nat} (past : n ≤ db.history.length) :
    db'.stateAt start n = db.stateAt start n := by
  obtain ⟨later, grown⟩ := effect.extends
  rw [Db.stateAt, Db.stateAt, ← grown, List.take_append_of_le_length past]
  refine List.foldl_ext _ _ _ fun state id member => ?_
  obtain ⟨txn, found, done⟩ := (recorded.iff id).mp (List.mem_of_mem_take member)
  rw [writesAt_of_found found, writesAt_of_found (effect.committed_stays found done)]

end Effect

/-! ## The chronicle -/

/-- Where the transaction has its place: at its commit, or else at the end. -/
def place (db : Db σ κ ρ S ε α C) (id : Nat) : Nat := db.history.idxOf id

/-- A statement of a transaction that has written `before`: its snapshot is the state after
`seen` commits, and it has looked at the rows as they were after `n` commits. -/
structure RanAt (service : Service σ κ ρ S ε α C) (effects : S → List ρ → List (Write κ ρ))
    (start : σ) (db : Db σ κ ρ S ε α C) (seen n : Nat) (before : List (Write κ ρ))
    (statement : S) (shown : List ρ) : Prop where
  le : seen ≤ n
  bound : n ≤ db.history.length
  performed :
    (service.meaning statement (applyAll (db.stateAt start seen) before)).perform service.clash
        (applyAll (db.stateAt start seen) before) (applyAll (db.stateAt start n) before) =
      some (shown, effects statement shown)

/-- What follows a statement in its transaction: later statements see at least what it has
looked at, and under the keys that have been touched nothing changes until the commit. -/
structure RanBefore (effects : S → List ρ → List (Write κ ρ)) (start : σ)
    (db : Db σ κ ρ S ε α C) (id : Nat) (txn : Txn σ κ ρ S ε α C) (n : Nat)
    (upTo : List (Write κ ρ)) (later : List (Event S ρ)) : Prop where
  ordered : ∀ statement shown seen, .ran statement shown seen ∈ later → n ≤ seen
  waiting : ∀ snapshot, txn.snapshot = some snapshot → n ≤ snapshot.seen
  place : txn.status ≠ .aborted → n ≤ db.place id
  kept : txn.status ≠ .aborted → ∀ k ∈ touched σ upTo,
    lookup (db.stateAt start n) k = lookup (db.stateAt start (db.place id)) k

/-- Every statement of a log of the transaction has run, with what follows it. -/
abbrev RanAll (service : Service σ κ ρ S ε α C) (effects : S → List ρ → List (Write κ ρ))
    (start : σ) (db : Db σ κ ρ S ε α C) (id : Nat) (txn : Txn σ κ ρ S ε α C)
    (log : List (Event S ρ)) : Prop :=
  ∀ earlier statement shown seen later, log = earlier ++ .ran statement shown seen :: later →
    ∃ n, RanAt service effects start db seen n (logged effects earlier) statement shown ∧
      RanBefore effects start db id txn n (logged effects earlier ++ effects statement shown)
        later

/-- The logs of all transactions have their place in the sequence of committed states. -/
structure Chronicle (service : Service σ κ ρ S ε α C) (effects : S → List ρ → List (Write κ ρ))
    (start : σ) (db : Db σ κ ρ S ε α C) : Prop where
  recorded : Recorded db
  exclusive : Exclusive db
  present : db.state = db.stateAt start db.history.length
  ended : ∀ (id : Nat) (txn : Txn σ κ ρ S ε α C), db.txns[id]? = some txn →
    txn.status = .committed → ∃ answer, txn.program = .done answer
  writes : ∀ (id : Nat) (txn : Txn σ κ ρ S ε α C), db.txns[id]? = some txn →
    txn.writes = logged effects txn.log
  snapshots : ∀ (id : Nat) (txn : Txn σ κ ρ S ε α C) (snapshot : Snapshot σ),
    db.txns[id]? = some txn → txn.snapshot = some snapshot →
      snapshot.seen ≤ db.history.length ∧ snapshot.state = db.stateAt start snapshot.seen
  ran : ∀ (id : Nat) (txn : Txn σ κ ρ S ε α C), db.txns[id]? = some txn →
    ∀ earlier statement shown seen later, txn.log = earlier ++ .ran statement shown seen :: later →
      ∃ n, RanAt service effects start db seen n (logged effects earlier) statement shown ∧
        RanBefore effects start db id txn n (logged effects earlier ++ effects statement shown)
          later

/-- A log played from some writes on, up to the state after `i` commits: each statement has
run, and the rows touched so far stay until then. -/
def Plays (service : Service σ κ ρ S ε α C) (effects : S → List ρ → List (Write κ ρ))
    (start : σ) (db : Db σ κ ρ S ε α C) (i : Nat) : List (Write κ ρ) → List (Event S ρ) → Prop
  | _, [] => True
  | before, .clock _ :: log => Plays service effects start db i before log
  | before, .ran statement shown seen :: log =>
      (∃ n ≤ i, RanAt service effects start db seen n before statement shown ∧
        ∀ k ∈ touched σ (before ++ effects statement shown),
          lookup (db.stateAt start n) k = lookup (db.stateAt start i) k) ∧
        Plays service effects start db i (before ++ effects statement shown) log

variable {db : Db σ κ ρ S ε α C} {before : List (Write κ ρ)} {i : Nat}
  {effects : S → List ρ → List (Write κ ρ)} {service : Service σ κ ρ S ε α C} {start : σ}

theorem plays_append {log later : List (Event S ρ)} :
    Plays service effects start db i before (log ++ later) ↔
      Plays service effects start db i before log ∧
        Plays service effects start db i (before ++ logged effects log) later := by
  induction log generalizing before with
  | nil => simp [Plays]
  | cons event log ih =>
      cases event with
      | clock now => exact ih
      | ran statement shown seen =>
          rw [List.cons_append, Plays, Plays, ih, logged_ran, List.append_assoc, and_assoc]

/-- **One statement of a log that plays**: the row under a key stays as it is, or it changes as
the kind of the statement says. -/
theorem RanAt.changes {seen n : Nat} {statement : S}
    {shown : List ρ} (ran : RanAt service effects start db seen n before statement shown)
    (kept : ∀ k ∈ touched σ (before ++ effects statement shown),
      lookup (db.stateAt start n) k = lookup (db.stateAt start i) k) (k : κ) :
    lookup (applyAll (db.stateAt start i) (before ++ effects statement shown)) k =
        lookup (applyAll (db.stateAt start i) before) k ∨
      Command.Changes (service.meaning statement (applyAll (db.stateAt start seen) before))
        (lookup (applyAll (db.stateAt start i) before) k)
        (lookup (applyAll (db.stateAt start i) (before ++ effects statement shown)) k) := by
  rw [applyAll_append]
  by_cases member : k ∈ touched σ (effects statement shown)
  · have same : lookup (applyAll (db.stateAt start n) before) k =
        lookup (applyAll (db.stateAt start i) before) k := by
      refine lookup_applyAll_congr before (kept k ?_)
      rw [touched_append]
      exact List.mem_append_right _ member
    have change := (Command.perform_changes ran.performed member).2
    rw [lookup_applyAll_congr (effects statement shown) same, same] at change
    exact .inr change
  · exact .inl (lookup_applyAll_of_not_mem _ member)

/-- **A log that plays** keeps what each of its statements keeps of the row under a key. -/
theorem Plays.keeps
    {log : List (Event S ρ)} {P : Option ρ → Prop} {k : κ}
    (plays : Plays service effects start db i before log)
    (kept : ∀ statement shown seen, .ran statement shown seen ∈ log → ∀ snapshot old? new?,
      (∀ row, old? = some row → key σ row = k) → (∀ row, new? = some row → key σ row = k) →
        Command.Changes (service.meaning statement snapshot) old? new? → P old? → P new?)
    (here : P (lookup (applyAll (db.stateAt start i) before) k)) :
    P (lookup (applyAll (db.stateAt start i) (before ++ logged effects log)) k) := by
  induction log generalizing before with
  | nil =>
      rw [logged_nil, List.append_nil]
      exact here
  | cons event log ih =>
      have later : ∀ statement shown seen, .ran statement shown seen ∈ log → ∀ snapshot old? new?,
          (∀ row, old? = some row → key σ row = k) → (∀ row, new? = some row → key σ row = k) →
            Command.Changes (service.meaning statement snapshot) old? new? → P old? → P new? :=
        fun statement shown seen member =>
          kept statement shown seen (List.mem_cons_of_mem _ member)
      cases event with
      | clock now =>
          rw [logged_clock]
          exact ih plays later here
      | ran statement shown seen =>
          obtain ⟨⟨n, -, ran, same⟩, plays⟩ := plays
          rw [logged_ran, ← List.append_assoc]
          refine ih plays later ?_
          rcases ran.changes same k with stays | change
          · rw [stays]
            exact here
          · exact kept statement shown seen List.mem_cons_self _ _ _
              (fun _ => key_of_lookup) (fun _ => key_of_lookup) change here

namespace Chronicle

variable {service : Service σ κ ρ S ε α C} {admits : C → Prop} {time : Nat}
  {db db' : Db σ κ ρ S ε α C} {effects : S → List ρ → List (Write κ ρ)} {start : σ}

theorem initial (state : σ) :
    Chronicle service effects state ({ state := state } : Db σ κ ρ S ε α C) where
  recorded := ⟨List.nodup_nil, fun id => by simp⟩
  exclusive _ _ _ _ _ found := by simp at found
  present := rfl
  ended _ _ found := by simp at found
  writes _ _ found := by simp at found
  snapshots _ _ _ found := by simp at found
  ran _ _ found := by simp at found

variable {shown : List ρ} {id j seen : Nat} {statement : S} {t txn txn' : Txn σ κ ρ S ε α C}

/-- An unfinished transaction has its place at the end. -/
theorem place_of_live (chronicle : Chronicle service effects start db)
    (found : db.txns[id]? = some txn) (live : txn.live = true) :
    db.place id = db.history.length := by
  refine List.idxOf_eq_length fun member => ?_
  obtain ⟨other, found', done⟩ := (chronicle.recorded.iff id).mp member
  obtain rfl : txn = other := Option.some.inj (found.symm.trans found')
  simp [Txn.live, done] at live

/-- The place of a committed transaction is where the history has it. -/
theorem place_of_history (chronicle : Chronicle service effects start db) {i : Nat}
    (at_ : db.history[i]? = some id) : db.place id = i := by
  obtain ⟨bound, rfl⟩ := List.getElem?_eq_some_iff.mp at_
  exact chronicle.recorded.nodup.idxOf_getElem i bound

/-- The keys that an event has touched are held. -/
theorem held (chronicle : Chronicle service effects start db) (found : db.txns[id]? = some txn)
    {earlier later : List (Event S ρ)}
    (split : txn.log = earlier ++ .ran statement shown seen :: later) {k : κ}
    (member : k ∈ touched σ (logged effects earlier ++ effects statement shown)) :
    k ∈ txn.holds := by
  rw [Txn.holds, chronicle.writes id txn found, split, logged_append, logged_ran,
    ← List.append_assoc, touched_append]
  exact List.mem_append_left _ member

/-- The snapshot of a statement is a committed state of the past. -/
theorem snapshotFor_eq (chronicle : Chronicle service effects start db)
    (found : db.txns[id]? = some txn) :
    (db.snapshotFor txn).seen ≤ db.history.length ∧
      (db.snapshotFor txn).state = db.stateAt start (db.snapshotFor txn).seen := by
  cases taken : txn.snapshot with
  | none => simpa [snapshotFor, taken] using chronicle.present
  | some snapshot =>
      simpa [snapshotFor, taken] using chronicle.snapshots id txn snapshot found taken

/-- A statement looks at the present. -/
theorem ranAt_performed (chronicle : Chronicle service effects start db)
    (tellable : service.Tellable effects)
    (found : db.txns[id]? = some txn) {writes : List (Write κ ρ)}
    (result : db.performed service id txn statement = some (some (shown, writes))) :
    RanAt service effects start db (db.snapshotFor txn).seen db.history.length
      (logged effects txn.log) statement shown := by
  obtain ⟨bound, past⟩ := chronicle.snapshotFor_eq found
  have done := (of_performed result).2
  obtain rfl := tellable _ _ _ _ _ done
  refine ⟨bound, le_rfl, ?_⟩
  rw [← past, ← chronicle.present, ← chronicle.writes id txn found]
  exact done

/-- What a statement has looked at stays in the past. -/
theorem ranAt_effect (chronicle : Chronicle service effects start db)
    (effect : Effect service admits time db db') {n : Nat} {before : List (Write κ ρ)}
    (ran : RanAt service effects start db seen n before statement shown) :
    RanAt service effects start db' seen n before statement shown where
  le := ran.le
  bound := ran.bound.trans effect.extends.length_le
  performed := by
    rw [effect.stateAt start chronicle.recorded ran.bound,
      effect.stateAt start chronicle.recorded (ran.le.trans ran.bound)]
    exact ran.performed

/-- The state at the place of a transaction that does not end with this step agrees with
the earlier one under the keys that it holds. -/
theorem place_effect (chronicle : Chronicle service effects start db)
    (effect : Effect service admits time db db') (found : db.txns[id]? = some txn)
    (found' : db'.txns[id]? = some txn') (unfinished : txn.status ≠ .aborted) :
    db.place id ≤ db'.place id ∧ ∀ k ∈ txn.holds,
      lookup (db.stateAt start (db.place id)) k = lookup (db'.stateAt start (db'.place id)) k := by
  have bound : db.place id ≤ db.history.length := List.idxOf_le_length
  have past := effect.stateAt start chronicle.recorded bound
  have stays : db'.history = db.history → db'.place id = db.place id := fun same => by
    rw [place, place, same]
  cases effect with
  | begun _ | moved _ _ => exact ⟨le_rfl, fun k _ => congrArg (lookup · k) past.symm⟩
  | @committed j other answer isOther stands ready =>
      by_cases member : id ∈ db.history
      · have same : (db.history ++ [j]).idxOf id = db.place id := List.idxOf_append_of_mem member
        simp only [place, same]
        exact ⟨le_rfl, fun k _ => congrArg (lookup · k) past.symm⟩
      · have last : db.place id = db.history.length := List.idxOf_eq_length member
        have after : (db.history ++ [j]).idxOf id =
            db.history.length + [j].idxOf id := List.idxOf_append_of_notMem member
        by_cases same : j = id
        · have zero : [j].idxOf id = 0 := by simp [same]
          simp only [place, after, zero, Nat.add_zero]
          rw [last] at past
          exact ⟨bound, fun k _ => by rw [← place, last, past]⟩
        · have one : [j].idxOf id = 1 := by simp [same]
          simp only [place, after, one]
          refine ⟨Nat.le_succ_of_le bound, fun k held => ?_⟩
          have live : txn.live = true := by
            cases status : txn.status with
            | running | checked => simp [Txn.live, status]
            | aborted => exact absurd status unfinished
            | committed =>
                exact absurd ((chronicle.recorded.iff id).mpr ⟨txn, found, status⟩) member
          have free := chronicle.exclusive id j txn other (Ne.symm same) found isOther live
            (live_of_ready ready) k held
          have next : (db.history ++ [j])[db.history.length]? = some j := by simp
          rw [last] at past
          have isDone : (db.txns.set j { other with status := .committed })[j]? =
              some { other with status := .committed } := by
            rw [getElem?_set_of_found isOther, if_pos rfl]
          rw [← place, last, stateAt_succ next, past, writesAt_of_found isDone]
          exact (lookup_applyAll_of_not_mem _ free).symm

/-- What follows a statement of a transaction that stays as it is. -/
theorem ranBefore_effect (chronicle : Chronicle service effects start db)
    (effect : Effect service admits time db db')
    (found : db.txns[id]? = some txn) (found' : db'.txns[id]? = some txn') {n : Nat}
    {upTo : List (Write κ ρ)} {later later' : List (Event S ρ)} (bound : n ≤ db.history.length)
    (before : RanBefore effects start db id txn n upTo later)
    (held : ∀ k ∈ touched σ upTo, k ∈ txn.holds)
    (ordered : ∀ statement shown seen, .ran statement shown seen ∈ later' → n ≤ seen)
    (waiting : ∀ snapshot, txn'.snapshot = some snapshot → n ≤ snapshot.seen)
    (ends : txn'.status ≠ .aborted → txn.status ≠ .aborted) :
    RanBefore effects start db' id txn' n upTo later' where
  ordered := ordered
  waiting := waiting
  place unfinished :=
    (before.place (ends unfinished)).trans
      (chronicle.place_effect effect found found' (ends unfinished)).1
  kept unfinished k member := by
    rw [effect.stateAt start chronicle.recorded bound, before.kept (ends unfinished) k member]
    exact (chronicle.place_effect effect found found' (ends unfinished)).2 k (held k member)

/-! ### One step -/

/-- The present is the last committed state. -/
theorem present_effect (chronicle : Chronicle service effects start db)
    (effect : Effect service admits time db db') :
    db'.state = db'.stateAt start db'.history.length := by
  have past := effect.stateAt start chronicle.recorded le_rfl
  cases effect with
  | begun _ | moved _ _ => exact chronicle.present.trans past.symm
  | @committed id txn answer found _ _ =>
      have isDone : (db.txns.set id { txn with status := .committed })[id]? =
          some { txn with status := .committed } := by
        rw [getElem?_set_of_found found, if_pos rfl]
      have next : (db.history ++ [id])[db.history.length]? = some id := by simp
      rw [List.length_append, List.length_singleton, stateAt_succ next, past,
        writesAt_of_found isDone, ← chronicle.present]
      rfl

/-- What a transaction has written is in its log. -/
theorem writes_effect (chronicle : Chronicle service effects start db)
    (tellable : service.Tellable effects) (effect : Effect service admits time db db')
    (present : db'.txns[j]? = some t) : t.writes = logged effects t.log := by
  cases effect with
  | begun _ =>
      rcases of_getElem?_append present with ⟨-, rfl⟩ | old
      · rfl
      · exact chronicle.writes j t old
  | @moved id txn txn' found moves =>
      rcases of_getElem?_set found present with ⟨rfl, rfl⟩ | ⟨-, old⟩
      · have before := chronicle.writes id txn found
        cases moves with
        | clock _ _ => rw [logged_append, logged_clock, logged_nil, List.append_nil]; exact before
        | snapshot _ _ _ | checked _ _ _ _ _ | aborted _ => exact before
        | performed _ _ result =>
            simp only [afterStatement, logged_append, logged_ran, logged_nil, List.append_nil,
              before, tellable _ _ _ _ _ (of_performed result).2]
      · exact chronicle.writes j t old
  | @committed id txn _ found _ _ =>
      rcases of_getElem?_set found present with ⟨rfl, rfl⟩ | ⟨-, old⟩
      · exact chronicle.writes id txn found
      · exact chronicle.writes j t old

/-- Snapshots are committed states. -/
theorem snapshots_effect (chronicle : Chronicle service effects start db)
    (effect : Effect service admits time db db')
    {snapshot : Snapshot σ} (present : db'.txns[j]? = some t) (taken : t.snapshot = some snapshot) :
    snapshot.seen ≤ db'.history.length ∧ snapshot.state = db'.stateAt start snapshot.seen := by
  have now := effect.stateAt start chronicle.recorded le_rfl
  have kept : ∀ t : Txn σ κ ρ S ε α C, db.txns[j]? = some t → t.snapshot = some snapshot →
      snapshot.seen ≤ db'.history.length ∧ snapshot.state = db'.stateAt start snapshot.seen := by
    intro t old taken
    obtain ⟨bound, same⟩ := chronicle.snapshots j t snapshot old taken
    exact ⟨bound.trans effect.extends.length_le,
      same.trans (effect.stateAt start chronicle.recorded bound).symm⟩
  cases effect with
  | begun _ =>
      rcases of_getElem?_append present with ⟨-, rfl⟩ | old
      · cases taken
      · exact kept t old taken
  | @moved id txn txn' found moves =>
      rcases of_getElem?_set found present with ⟨rfl, rfl⟩ | ⟨-, old⟩
      · cases moves with
        | clock _ _ | checked _ _ _ _ _ | aborted _ => exact kept txn found taken
        | snapshot _ _ _ =>
            obtain rfl := Option.some.inj taken
            exact ⟨le_rfl, chronicle.present.trans now.symm⟩
        | performed _ _ _ => cases taken
      · exact kept t old taken
  | @committed id txn _ found _ _ =>
      rcases of_getElem?_set found present with ⟨rfl, rfl⟩ | ⟨-, old⟩
      · exact kept txn found taken
      · exact kept t old taken

/-- A transaction whose log stays as it is. -/
theorem ranAll_of_same (chronicle : Chronicle service effects start db)
    (effect : Effect service admits time db db')
    (found : db.txns[id]? = some txn) (found' : db'.txns[id]? = some txn')
    (same : txn'.log = txn.log)
    (taken : ∀ snapshot, txn'.snapshot = some snapshot →
      txn.snapshot = some snapshot ∨ db.history.length ≤ snapshot.seen)
    (ends : txn'.status ≠ .aborted → txn.status ≠ .aborted) :
    RanAll service effects start db' id txn' txn'.log := by
  intro earlier statement shown seen later split
  rw [same] at split
  obtain ⟨n, ran, before⟩ := chronicle.ran id txn found earlier statement shown seen later split
  refine ⟨n, chronicle.ranAt_effect effect ran, chronicle.ranBefore_effect effect found found'
    ran.bound before (fun k => chronicle.held found split) before.ordered ?_ ends⟩
  intro snapshot isTaken
  rcases taken snapshot isTaken with old | late
  · exact before.waiting snapshot old
  · exact ran.bound.trans late

/-- The earlier part of a log that one event has been added to: a statement has seen what those
before it have looked at. -/
theorem ran_of_snoc (chronicle : Chronicle service effects start db)
    (effect : Effect service admits time db db')
    {last : Event S ρ} (found : db.txns[id]? = some txn) (found' : db'.txns[id]? = some txn')
    (same : txn'.status = txn.status)
    (follows : ∀ n statement shown seen, last = .ran statement shown seen →
      (∀ snapshot, txn.snapshot = some snapshot → n ≤ snapshot.seen) →
        n ≤ db.history.length → n ≤ seen)
    (taken : ∀ snapshot, txn'.snapshot = some snapshot → txn.snapshot = some snapshot)
    {earlier rest : List (Event S ρ)}
    (split : txn.log = earlier ++ .ran statement shown seen :: rest) :
    ∃ n, RanAt service effects start db' seen n (logged effects earlier) statement shown ∧
      RanBefore effects start db' id txn' n
        (logged effects earlier ++ effects statement shown) (rest ++ [last]) := by
  obtain ⟨n, ran, before⟩ := chronicle.ran id txn found earlier statement shown seen rest split
  refine ⟨n, chronicle.ranAt_effect effect ran, chronicle.ranBefore_effect effect found found'
    ran.bound before (fun k => chronicle.held found split) ?_
    (fun snapshot isTaken => before.waiting snapshot (taken snapshot isTaken))
    fun unfinished => same ▸ unfinished⟩
  intro statement' shown' seen' member
  rcases List.mem_append.mp member with old | new
  · exact before.ordered statement' shown' seen' old
  · exact follows n statement' shown' seen' (List.mem_singleton.mp new).symm before.waiting
      ran.bound

/-- A transaction that has executed a statement. -/
theorem ranAll_performed (chronicle : Chronicle service effects start db)
    (tellable : service.Tellable effects) (effect : Effect service admits time db db') {stmt : S}
    {next : List ρ → Program S ρ ε α} {rows : List ρ} {writes : List (Write κ ρ)}
    (found : db.txns[id]? = some txn) (live : txn.live = true)
    (result : db.performed service id txn stmt = some (some (rows, writes)))
    (same : db'.history = db.history)
    (present : db'.txns[id]? = some (db.afterStatement service txn stmt next rows writes)) :
    RanAll service effects start db' id (db.afterStatement service txn stmt next rows writes)
      (txn.log ++ [.ran stmt rows (db.snapshotFor txn).seen]) := by
  intro earlier statement shown seen later split
  rcases split_snoc split with ⟨rfl, isLast, rfl⟩ | ⟨rest, rfl, old⟩
  · obtain ⟨rfl, rfl, rfl⟩ := Event.ran.inj isLast
    have last : db'.place id = db.history.length := by
      rw [place, same]
      exact chronicle.place_of_live found live
    refine ⟨db.history.length,
      chronicle.ranAt_effect effect (chronicle.ranAt_performed tellable found result), ?_, ?_, ?_, ?_⟩
    · exact fun _ _ _ member => absurd member List.not_mem_nil
    · exact fun _ taken => by cases taken
    · exact fun _ => last.ge
    · exact fun _ k _ => congrArg (fun n => lookup (Db.stateAt start _ n) k) last.symm
  · refine chronicle.ran_of_snoc effect found present rfl ?_ (fun _ taken => by cases taken) old
    intro n statement' shown' seen' isLast waiting bound
    obtain ⟨-, -, rfl⟩ := Event.ran.inj isLast
    cases taken : txn.snapshot with
    | none => simpa [snapshotFor, taken] using bound
    | some snapshot => simpa [snapshotFor, taken] using waiting snapshot taken

/-- What the logs of transactions say stays true. -/
theorem ran_effect (chronicle : Chronicle service effects start db)
    (tellable : service.Tellable effects) (effect : Effect service admits time db db')
    (present : db'.txns[j]? = some t) : RanAll service effects start db' j t t.log := by
  have same_txn : db.txns[j]? = some t → RanAll service effects start db' j t t.log := fun old =>
    chronicle.ranAll_of_same effect old present rfl (fun _ => .inl) fun unfinished => unfinished
  have step := effect
  cases effect with
  | begun admitted =>
      rcases of_getElem?_append present with ⟨-, rfl⟩ | old
      · intro earlier statement shown seen later split
        exact absurd split.symm (by simp [Txn.start])
      · exact same_txn old
  | @moved id txn txn' found moves =>
      rcases of_getElem?_set found present with ⟨rfl, rfl⟩ | ⟨-, old⟩
      · have unfinished : txn.status ≠ .aborted := fun aborted => by
          have live := moves.live
          simp [Txn.live, aborted] at live
        have live := moves.live
        cases moves with
        | clock _ _ =>
            intro earlier statement shown seen later split
            rcases split_snoc split with ⟨-, same, -⟩ | ⟨rest, rfl, old⟩
            · cases same
            · exact chronicle.ran_of_snoc step found present rfl
                (fun _ _ _ _ same => by cases same) (fun _ taken => taken) old
        | snapshot _ _ _ =>
            refine chronicle.ranAll_of_same step found present rfl (fun snapshot taken => .inr ?_)
              fun _ => unfinished
            exact Option.some.inj taken ▸ le_rfl
        | checked _ _ _ _ _ | aborted _ =>
            exact chronicle.ranAll_of_same step found present rfl (fun _ => .inl)
              fun _ => unfinished
        | performed running stands result =>
            exact chronicle.ranAll_performed tellable step found live result rfl present
      · exact same_txn old
  | @committed id txn answer found stands ready =>
      rcases of_getElem?_set found present with ⟨rfl, rfl⟩ | ⟨-, old⟩
      · refine chronicle.ranAll_of_same step found present rfl
          (fun _ => .inl) fun _ aborted => ?_
        have live := live_of_ready ready
        simp [Txn.live, aborted] at live
      · exact same_txn old

/-- **Every step keeps the chronicle.** -/
theorem effect (chronicle : Chronicle service effects start db)
    (tellable : service.Tellable effects) (effect : Effect service admits time db db') :
    Chronicle service effects start db' where
  recorded := chronicle.recorded.effect effect
  exclusive := chronicle.exclusive.effect effect
  present := chronicle.present_effect effect
  ended j t present done := by
    rcases effect.committed_before present done with old | ⟨txn, answer, -, -, stands, rfl, -, -⟩
    · exact chronicle.ended j t old done
    · exact ⟨answer, stands⟩
  writes _ _ present := chronicle.writes_effect tellable effect present
  snapshots _ _ _ present taken := chronicle.snapshots_effect effect present taken
  ran _ _ present := chronicle.ran_effect tellable effect present

/-! ## One commit -/

section Commit

variable {i id : Nat} {txn : Txn σ κ ρ S ε α C}

/-- The transaction of a commit. -/
theorem txn_of_history (chronicle : Chronicle service effects start db)
    (next : db.history[i]? = some id) :
    ∃ txn : Txn σ κ ρ S ε α C, db.txns[id]? = some txn ∧ txn.status = .committed :=
  (chronicle.recorded.iff id).mp (List.mem_of_getElem? next)

/-- The state after a commit. -/
theorem stateAt_commit (next : db.history[i]? = some id) (found : db.txns[id]? = some txn) :
    db.stateAt start (i + 1) = txn.view (db.stateAt start i) := by
  rw [stateAt_succ next, writesAt_of_found found, Txn.view]

/-- A statement of a committed transaction: the rows that it has touched are still as it
has found them when the transaction commits. -/
theorem ran_of_committed (chronicle : Chronicle service effects start db)
    (next : db.history[i]? = some id) (found : db.txns[id]? = some txn)
    (done : txn.status = .committed) {earlier later : List (Event S ρ)} {statement : S}
    {shown : List ρ} {seen : Nat}
    (split : txn.log = earlier ++ .ran statement shown seen :: later) :
    ∃ n, n ≤ i ∧ RanAt service effects start db seen n (logged effects earlier) statement shown ∧
      ∀ k ∈ touched σ (logged effects earlier ++ effects statement shown),
        lookup (db.stateAt start n) k = lookup (db.stateAt start i) k := by
  obtain ⟨n, ran, before⟩ := chronicle.ran id txn found earlier statement shown seen later split
  have unfinished : txn.status ≠ .aborted := by simp [done]
  have here := chronicle.place_of_history next
  exact ⟨n, here ▸ before.place unfinished, ran, here ▸ before.kept unfinished⟩

/-- The log of a committed transaction plays up to its commit. -/
theorem plays (chronicle : Chronicle service effects start db)
    (next : db.history[i]? = some id) (found : db.txns[id]? = some txn)
    (done : txn.status = .committed) : Plays service effects start db i [] txn.log := by
  have from_here : ∀ (later earlier : List (Event S ρ)), txn.log = earlier ++ later →
      Plays service effects start db i (logged effects earlier) later := by
    intro later
    induction later with
    | nil => exact fun _ _ => trivial
    | cons event later ih =>
        intro earlier split
        have rest := ih (earlier ++ [event]) (by rw [split, List.append_assoc]; rfl)
        rw [logged_append] at rest
        cases event with
        | clock now =>
            rw [logged_clock, logged_nil, List.append_nil] at rest
            exact rest
        | ran statement shown seen =>
            rw [logged_ran, logged_nil, List.append_nil] at rest
            exact ⟨chronicle.ran_of_committed next found done split, rest⟩
  exact from_here txn.log [] rfl

/-- What a committed transaction has written, statements of its log make. -/
theorem makes_of_written (chronicle : Chronicle service effects start db)
    (found : db.txns[id]? = some txn) {write : Write κ ρ}
    (member : write ∈ logged effects txn.log) :
    ∃ statement shown seen, .ran statement shown seen ∈ txn.log ∧
      write ∈ effects statement shown ∧ service.Makes statement write := by
  obtain ⟨statement, shown, seen, isRan, isWrite⟩ := mem_logged.mp member
  obtain ⟨earlier, later, split⟩ := List.append_of_mem isRan
  obtain ⟨n, ran, -⟩ := chronicle.ran id txn found earlier statement shown seen later split
  exact ⟨statement, shown, seen, isRan, isWrite, _, _, _, _, ran.performed, isWrite⟩

/-- A row that a transaction sees is in the state, or a statement of the transaction has put
it. -/
theorem row_view (chronicle : Chronicle service effects start db) (found : db.txns[id]? = some txn)
    {state : σ} {k : κ} {row : ρ} (after : lookup (txn.view state) k = some row) :
    lookup state k = some row ∨
      ∃ statement shown seen, .ran statement shown seen ∈ txn.log ∧
        service.Makes statement (.put row) := by
  rcases lookup_applyAll_cases after with ⟨-, before⟩ | ⟨-, put⟩
  · exact .inl before
  · rw [chronicle.writes id txn found] at put
    obtain ⟨statement, shown, seen, isRan, -, makes⟩ := chronicle.makes_of_written found put
    exact .inr ⟨statement, shown, seen, isRan, makes⟩

/-- A key that no statement erases keeps a row. -/
theorem present_view (chronicle : Chronicle service effects start db)
    (found : db.txns[id]? = some txn) {state : σ} {k : κ} {row : ρ}
    (before : lookup state k = some row)
    (stays : ∀ statement, ¬ service.Makes statement (.erase k)) :
    ∃ row', lookup (txn.view state) k = some row' := by
  refine exists_lookup_applyAll (fun isWritten => ?_) (.inr ⟨row, before⟩)
  rw [chronicle.writes id txn found] at isWritten
  obtain ⟨statement, -, -, -, -, makes⟩ := chronicle.makes_of_written found isWritten
  exact stays statement makes

/-- A committed transaction has come to an answer, with a log of its end. -/
theorem outcome (chronicle : Chronicle service effects start db) {told : S → List ρ → Prop}
    {Q : C → α → List (Event S ρ) → Prop}
    (points : AtPoints told
      (fun call log program => ∀ answer, program = .done answer → Q call answer log) db)
    (found : db.txns[id]? = some txn) (done : txn.status = .committed) :
    ∃ answer, txn.program = .done answer ∧ Q txn.call answer txn.log := by
  obtain ⟨answer, stands⟩ := chronicle.ended id txn found done
  exact ⟨answer, stands, (points id txn found).here answer stands⟩

end Commit

end Chronicle

end Db

namespace Db

/-! ## What a call knows when it comes in -/

/-- Something held of a committed state before the call of a transaction came in, and the
transaction sees no earlier state. -/
def Informed (start : σ) (Past : C → σ → Prop) (db : Db σ κ ρ S ε α C) : Prop :=
  ∀ (id : Nat) (txn : Txn σ κ ρ S ε α C), db.txns[id]? = some txn →
    ∃ b ≤ db.history.length, Past txn.call (db.stateAt start b) ∧
      (∀ statement shown seen, .ran statement shown seen ∈ txn.log → b ≤ seen) ∧
        ∀ snapshot, txn.snapshot = some snapshot → b ≤ snapshot.seen

theorem Informed.effect {service : Service σ κ ρ S ε α C} {admits : C → Prop} {time : Nat}
    {db db' : Db σ κ ρ S ε α C} {start : σ} {Past : C → σ → Prop}
    (informed : Informed start Past db) (recorded : Recorded db)
    (effect : Effect service admits time db db')
    (begins : ∀ call, admits call → ∃ b ≤ db.history.length, Past call (db.stateAt start b)) :
    Informed start Past db' := by
  have kept : ∀ {b : Nat} {call : C}, b ≤ db.history.length → Past call (db.stateAt start b) →
      b ≤ db'.history.length ∧ Past call (db'.stateAt start b) := by
    intro b call bound past
    rw [effect.stateAt start recorded bound]
    exact ⟨bound.trans effect.extends.length_le, past⟩
  have same : ∀ {j : Nat} {t : Txn σ κ ρ S ε α C}, db.txns[j]? = some t →
      ∃ b ≤ db'.history.length, Past t.call (db'.stateAt start b) ∧
        (∀ statement shown seen, .ran statement shown seen ∈ t.log → b ≤ seen) ∧
          ∀ snapshot, t.snapshot = some snapshot → b ≤ snapshot.seen := by
    intro j t found
    obtain ⟨b, bound, past, rest⟩ := informed j t found
    exact ⟨b, (kept bound past).1, (kept bound past).2, rest⟩
  intro j t present
  cases effect with
  | @begun call admitted =>
      rcases of_getElem?_append present with ⟨-, rfl⟩ | old
      · obtain ⟨b, bound, past⟩ := begins call admitted
        exact ⟨b, (kept bound past).1, (kept bound past).2,
          fun _ _ _ member => absurd member List.not_mem_nil, fun _ taken => nomatch taken⟩
      · exact same old
  | @moved id txn txn' found moves =>
      rcases of_getElem?_set found present with ⟨rfl, rfl⟩ | ⟨-, old⟩
      · obtain ⟨b, bound, past, ran, waiting⟩ := informed id txn found
        have call := moves.call
        refine ⟨b, (kept bound past).1, call ▸ (kept bound past).2, ?_⟩
        cases moves with
        | clock _ _ =>
            refine ⟨fun statement shown seen member => ?_, waiting⟩
            rcases List.mem_append.mp member with earlier | now
            · exact ran statement shown seen earlier
            · simp at now
        | snapshot _ _ _ =>
            refine ⟨ran, fun snapshot taken => ?_⟩
            obtain rfl := Option.some.inj taken
            exact bound
        | checked _ _ _ _ _ | aborted _ => exact ⟨ran, waiting⟩
        | performed _ _ _ =>
            refine ⟨fun statement shown seen member => ?_, fun _ taken => nomatch taken⟩
            rcases List.mem_append.mp member with earlier | now
            · exact ran statement shown seen earlier
            · obtain ⟨-, -, rfl⟩ := Event.ran.inj (List.mem_singleton.mp now)
              cases taken : txn.snapshot with
              | none => simpa [snapshotFor, taken] using bound
              | some snapshot => simpa [snapshotFor, taken] using waiting snapshot taken
      · exact same old
  | @committed id txn _ found _ _ =>
      rcases of_getElem?_set found present with ⟨rfl, rfl⟩ | ⟨-, old⟩
      · obtain ⟨b, bound, past, rest⟩ := informed id txn found
        exact ⟨b, (kept bound past).1, (kept bound past).2, rest⟩
      · exact same old

end Db

/-! ## In every run -/

/-- The database has a chronicle, from an initial state on, and its transactions end as
their programs do. -/
structure Service.Chronicled (service : Service σ κ ρ S ε α C) (initial : σ → Prop)
    (effects : S → List ρ → List (Write κ ρ)) (told : S → List ρ → Prop)
    (Q : C → α → List (Event S ρ) → Prop) (db : Db σ κ ρ S ε α C) : Prop where
  chronicle : ∃ start, initial start ∧ Db.Chronicle service effects start db
  points : Db.AtPoints told
    (fun call log program => ∀ answer, program = .done answer → Q call answer log) db

variable {Q : C → α → List (Event S ρ) → Prop} {ok : DbWorld σ κ ρ S ε α C → DbAct C → Prop}
  {effects : S → List ρ → List (Write κ ρ)} {told : S → List ρ → Prop}
  {service : Service σ κ ρ S ε α C}

theorem Service.inductive_chronicled {initial : σ → Prop}
    (tellable : service.Tellable effects) (tells : service.Tells told)
    (programs : ∀ call, Program.Ends told (Q call) [] (service.program call)) :
    ((service.system initial).restrict ok).Inductive fun world =>
      service.Chronicled initial effects told Q world.db := by
  have start : ∀ state, initial state →
      service.Chronicled initial effects told Q ({ state := state } : Db σ κ ρ S ε α C) :=
    fun state isInitial => ⟨⟨state, isInitial, .initial state⟩, fun _ _ found => by simp at found⟩
  refine Service.inductive_of_effect start ?_
  rintro world action db ⟨⟨start, isInitial, chronicle⟩, points⟩ - effect -
  exact ⟨⟨start, isInitial, chronicle.effect tellable effect⟩, points.effect tells programs effect⟩

/-- In every run from a state on, the committed states of the past stay. -/
theorem Service.past_of_leads {initial : σ → Prop} (start : σ)
    {world world' : DbWorld σ κ ρ S ε α C} (recorded : Db.Recorded world.db)
    (run : (service.system initial).Leads world world') :
    world.db.history <+: world'.db.history ∧
      ∀ n ≤ world.db.history.length, world'.db.stateAt start n = world.db.stateAt start n := by
  have invariant : (service.system initial).Inductive fun world => Db.Recorded world.db := by
    refine System.Inductive.unrestricted (Service.inductive_of_effect ?_ ?_)
    · exact fun state _ => ⟨List.nodup_nil, fun id => by simp⟩
    · exact fun world action db recorded _ effect _ => recorded.effect effect
  have kept : ∀ (middle : DbWorld σ κ ρ S ε α C) (act : DbAct C) (after : DbWorld σ κ ρ S ε α C),
      Db.Recorded middle.db →
        (world.db.history <+: middle.db.history ∧
          ∀ n ≤ world.db.history.length, middle.db.stateAt start n = world.db.stateAt start n) →
        (service.system initial).step middle act = some after →
          world.db.history <+: after.db.history ∧
            ∀ n ≤ world.db.history.length,
              after.db.stateAt start n = world.db.stateAt start n := by
    rintro middle act after recorded ⟨grown, past⟩ step
    cases WorldEffect.of_step step with
    | idle => exact ⟨grown, past⟩
    | onDb effect _ =>
        refine ⟨grown.trans effect.extends, fun n bound => ?_⟩
        exact (effect.stateAt start recorded (bound.trans grown.length_le)).trans (past n bound)
  exact System.Leads.preserves invariant kept recorded ⟨List.prefix_rfl, fun _ _ => rfl⟩ run

/-- **Invariants of the committed states**: what every commit keeps holds in every run. -/
theorem Service.inductive_states {initial : σ → Prop} {inv : σ → Prop}
    (tellable : service.Tellable effects) (tells : service.Tells told)
    (programs : ∀ call, Program.Ends told (Q call) [] (service.program call))
    (start : ∀ state, initial state → inv state)
    (kept : ∀ (world : DbWorld σ κ ρ S ε α C) (id : Nat) (txn : Txn σ κ ρ S ε α C) (answer : α),
      service.Chronicled initial effects told Q world.db → ok world (.onDb (.commit id)) →
        world.db.txns[id]? = some txn → Q txn.call answer txn.log → inv world.db.state →
          inv (txn.view world.db.state)) :
    ((service.system initial).restrict ok).Inductive fun world =>
      service.Chronicled initial effects told Q world.db ∧ inv world.db.state := by
  refine (Service.inductive_chronicled tellable tells programs).strengthen ?_ ?_
  · rintro world ⟨clock, state, isInitial, rfl⟩
    exact start state isInitial
  · intro world act world' chronicled holds step
    obtain ⟨allowed, step⟩ := System.restrict_step.mp step
    cases WorldEffect.of_step step with
    | idle => exact holds
    | onDb effect commits =>
        cases effect with
        | begun _ | moved _ _ => exact holds
        | @committed id txn answer found stands _ =>
            obtain rfl := commits id rfl
            exact kept world id txn answer chronicled allowed found
              ((chronicled.points id txn found).here answer stands) holds

/-- From one initial state on, when every call that comes in knows something of a committed
state, transactions are informed. -/
theorem Service.inductive_informed {initial : σ → Prop}
    {start : σ} {Past : C → σ → Prop}
    (tellable : service.Tellable effects) (tells : service.Tells told)
    (programs : ∀ call, Program.Ends told (Q call) [] (service.program call))
    (only : ∀ state, initial state → state = start)
    (begins : ∀ (world : DbWorld σ κ ρ S ε α C) (call : C), ok world (.onDb (.begin call)) →
      ∃ n ≤ world.db.history.length, Past call (world.db.stateAt start n)) :
    ((service.system initial).restrict ok).Inductive fun world =>
      service.Chronicled initial effects told Q world.db ∧ Db.Informed start Past world.db := by
  refine (Service.inductive_chronicled tellable tells programs).strengthen ?_ ?_
  · rintro world ⟨clock, state, -, rfl⟩ id txn found
    cases found
  · intro world act world' chronicled informed step
    obtain ⟨allowed, step⟩ := System.restrict_step.mp step
    obtain ⟨start', isInitial, chronicle⟩ := chronicled.chronicle
    obtain rfl := only start' isInitial
    cases WorldEffect.of_step step with
    | idle => exact informed
    | onDb effect _ =>
        refine informed.effect chronicle.recorded effect fun call isBegin => ?_
        subst isBegin
        exact begins world call allowed

end OpsComposer.Foundations
