import OpsComposer.Accounts.Enrollment
import OpsComposer.Authentication.Effect
import OpsComposer.Foundations.RowTurns

/-!
# Accepted steps rise

A code is accepted by an update that asks for a step newer than the last one.  The update is
guarded, but the code is verified before, against a factor that may have changed since.

* `acceptedSteps_rise` — as long as no commit replaces the secret of a user, the steps that
  committed transactions have accepted for it grow from one commit to the next, so that none
  is accepted twice; and each of them has been verified: the presented code is the code of the
  step for a secret that the call has read, at a time of the clock next to the step.
-/

set_option autoImplicit false

namespace OpsComposer.Accounts

open Domain Foundations Repositories Services

/-! ## A stretch of the history -/

/-- The steps that the transactions of a stretch have accepted for the user's factor. -/
def acceptedSteps (db : AuthDb) (userId : Uuid) (stretch : List Nat) : List Nat :=
  stretch.filterMap fun id => (db.txns[id]?).bind fun txn => acceptedStep userId txn.log

/-- No transaction of the stretch has replaced the user's secret. -/
def KeepsSecret (db : AuthDb) (userId : Uuid) (stretch : List Nat) : Prop :=
  ∀ id ∈ stretch, ∀ txn ∈ db.txns[id]?, replacesSecret userId txn.log = false

instance (db : AuthDb) (userId : Uuid) (stretch : List Nat) :
    Decidable (KeepsSecret db userId stretch) := by
  unfold KeepsSecret
  infer_instance

theorem mem_acceptedSteps {db : AuthDb} {userId : Uuid} {stretch : List Nat} {step : Nat} :
    step ∈ acceptedSteps db userId stretch ↔ ∃ id ∈ stretch, ∃ txn : AuthTxn,
      db.txns[id]? = some txn ∧ acceptedStep userId txn.log = some step := by
  simp only [acceptedSteps, List.mem_filterMap, Option.bind_eq_some_iff]

theorem acceptedSteps_snoc {db : AuthDb} {userId : Uuid} {stretch : List Nat} {id : Nat}
    {txn : AuthTxn} (found : db.txns[id]? = some txn) :
    acceptedSteps db userId (stretch ++ [id]) =
      acceptedSteps db userId stretch ++ (acceptedStep userId txn.log).toList := by
  cases accepted : acceptedStep userId txn.log <;>
    simp [acceptedSteps, List.filterMap_append, found, accepted]

section Stretch

variable {primitives : Primitives} {admits : AuthCall → Prop} {time : Nat} {db db' : AuthDb}
  {userId : Uuid} {stretch : List Nat}

/-- What has been committed stays as it is. -/
theorem txn_of_committed (recorded : db.Recorded)
    (effect : Db.Effect (authService primitives) admits time db db') {id : Nat}
    (member : id ∈ db.history) : db'.txns[id]? = db.txns[id]? := by
  obtain ⟨txn, found, done⟩ := (recorded.iff id).mp member
  exact (effect.committed_stays found done).trans found.symm

/-- What a stretch has accepted stays, and it kept the secret before if it does. -/
theorem KeepsSecret.of_past (keeps : KeepsSecret db' userId stretch) (recorded : db.Recorded)
    (effect : Db.Effect (authService primitives) admits time db db')
    (past : ∀ id ∈ stretch, id ∈ db.history) :
    KeepsSecret db userId stretch ∧
      acceptedSteps db' userId stretch = acceptedSteps db userId stretch := by
  have same : ∀ id ∈ stretch, db'.txns[id]? = db.txns[id]? := fun id member =>
    txn_of_committed recorded effect (past id member)
  constructor
  · intro id member txn found
    exact keeps id member txn (same id member ▸ found)
  · unfold acceptedSteps
    exact List.filterMap_congr fun id member => by rw [same id member]

/-- A stretch up to a commit. -/
theorem KeepsSecret.of_last {id last : Nat} {txn : AuthTxn} {earlier : List Nat}
    (keeps : KeepsSecret db' userId (stretch ++ [last])) (recorded : db.Recorded)
    (effect : Db.Effect (authService primitives) admits time db db')
    (isCommitted : db'.txns[id]? = some { txn with status := .committed })
    (history : db.history ++ [id] = earlier ++ (stretch ++ [last])) :
    db.history = earlier ++ stretch ∧ replacesSecret userId txn.log = false ∧
      KeepsSecret db userId stretch ∧ acceptedSteps db' userId (stretch ++ [last]) =
        acceptedSteps db userId stretch ++ (acceptedStep userId txn.log).toList := by
  rw [← List.append_assoc] at history
  obtain ⟨before, same⟩ := List.append_inj' history rfl
  obtain rfl : id = last := by simpa using same
  obtain ⟨kept, steps⟩ :=
    KeepsSecret.of_past (fun other member => keeps other (List.mem_append_left _ member)) recorded
      effect fun other member => by simp [before, member]
  refine ⟨before, keeps id (by simp) { txn with status := .committed } isCommitted, kept, ?_⟩
  rw [acceptedSteps_snoc isCommitted, steps]

end Stretch

/-! ## Steps that have been accepted -/

/-- A factor of the user, if there is one, has accepted the step or a newer one. -/
def Reached (store : AuthStore) (userId : Uuid) (step : Nat) : Prop :=
  ∀ factor, store.factors.lookup userId = some factor →
    ∃ last ∈ factor.lastAcceptedStep, step ≤ last

/-- What is known of the steps that are accepted. -/
structure StepsRise (db : AuthDb) : Prop where
  /-- A transaction under way that has accepted a step has found an older one. -/
  newer : ∀ (id : Nat) (txn : AuthTxn), db.txns[id]? = some txn → txn.live = true →
    ∀ userId, replacesSecret userId txn.log = false →
      ∀ step, acceptedStep userId txn.log = some step →
        ∃ factor, db.state.factors.lookup userId = some factor ∧
          ∀ last ∈ factor.lastAcceptedStep, last < step
  /-- The steps of a stretch in which the secret stays rise. -/
  rise : ∀ userId earlier stretch later, db.history = earlier ++ stretch ++ later →
    KeepsSecret db userId stretch → (acceptedSteps db userId stretch).Pairwise (· < ·)
  /-- The factor has the steps of a stretch up to now. -/
  reached : ∀ userId earlier stretch, db.history = earlier ++ stretch →
    KeepsSecret db userId stretch →
      ∀ step ∈ acceptedSteps db userId stretch, Reached db.state userId step

section Effect

variable {primitives : Primitives} {admits : AuthCall → Prop} {time : Nat} {db db' : AuthDb}
  {userId : Uuid}

/-- A statement that accepts a step has found an older one committed. -/
theorem newer_of_performed (tracked : FactorsTracked db) {id : Nat} {txn : AuthTxn}
    (found : db.txns[id]? = some txn) (live : txn.live = true) {step now : Nat} {row : AuthRow}
    {rows : List AuthRow} {writes : List (Write AuthKey AuthRow)}
    (result : db.performed (authService primitives) id txn (.acceptTotpStep userId step now) =
      some (some (row :: rows, writes)))
    (kept : replacesSecret userId txn.log = false) :
    ∃ factor, db.state.factors.lookup userId = some factor ∧
      ∀ last ∈ factor.lastAcceptedStep, last < step := by
  have written := locks_acceptTotpStep primitives _ _ _ (Db.of_performed result).2
  rcases Db.performed_row result (AuthKey.factor userId) with ⟨untouched, -⟩ | ⟨-, change⟩
  · exact absurd written untouched
  · obtain ⟨old, before, accepts, -⟩ := changes_setRows change
    obtain ⟨-, -, newer⟩ := of_decide_eq_true accepts
    obtain ⟨factor, committed, -, from'⟩ :=
      tracked.tracks id txn found live userId kept old (lookup_factor.mp before)
    exact ⟨factor, committed, (from'.accept newer).2⟩

/-- The first part, over one step. -/
theorem StepsRise.newer_effect (rises : StepsRise db) (tracked : FactorsTracked db)
    (effect : Db.Effect (authService primitives) admits time db db') {j : Nat} {t : AuthTxn}
    (present : db'.txns[j]? = some t) (live : t.live = true)
    (kept : replacesSecret userId t.log = false) {step : Nat}
    (accepted : acceptedStep userId t.log = some step) :
    ∃ factor, db'.state.factors.lookup userId = some factor ∧
      ∀ last ∈ factor.lastAcceptedStep, last < step := by
  cases effect with
  | begun _ =>
      rcases Db.of_getElem?_append present with ⟨-, rfl⟩ | old
      · cases accepted
      · exact rises.newer j t old live userId kept step accepted
  | @moved id txn txn' found moves =>
      rcases Db.of_getElem?_set found present with ⟨rfl, rfl⟩ | ⟨-, old⟩
      · have before := rises.newer id txn found moves.live userId
        cases moves with
        | clock _ _ =>
            obtain ⟨quiet, -⟩ := Bool.or_eq_false_iff.mp (replacesSecret_append ▸ kept)
            rw [acceptedStep_snoc] at accepted
            exact before quiet step accepted
        | snapshot _ _ _ | checked _ _ _ _ _ => exact before kept step accepted
        | aborted _ => simp [Txn.live] at live
        | @performed statement next shown writes running stands result =>
            obtain ⟨quiet, -⟩ := Bool.or_eq_false_iff.mp (replacesSecret_append ▸ kept)
            change acceptedStep userId (txn.log ++ [_]) = some step at accepted
            rw [acceptedStep_snoc] at accepted
            rcases acceptedBy_cases userId (acceptedStep userId txn.log)
                (.ran statement shown (db.snapshotFor txn).seen) with
              same | ⟨step', now, row, rows, _, event, value⟩
            · exact before quiet step (same ▸ accepted)
            · obtain ⟨rfl, rfl, -⟩ := Event.ran.inj event
              obtain rfl : step' = step := Option.some.inj (value.symm.trans accepted)
              exact newer_of_performed tracked found (by simp [Txn.live, running]) result quiet
      · exact rises.newer j t old live userId kept step accepted
  | @committed id txn _ found _ ready =>
      rcases Db.of_getElem?_set found present with ⟨rfl, rfl⟩ | ⟨apart, old⟩
      · simp [Txn.live] at live
      · obtain ⟨factor, committed, newer⟩ := rises.newer j t old live userId kept step accepted
        have held := tracked.locked j t old userId (by simp [accepted])
        have free := tracked.exclusive j id t txn (Ne.symm apart) old found live
          (Db.live_of_ready ready) _ held
        have same := lookup_factor_congr (Db.view_of_not_held db.state free)
        exact ⟨factor, same.trans committed, newer⟩

/-- What a factor has reached it still has after the commit of a transaction that has not
replaced the secret. -/
theorem Reached.commit {txn : AuthTxn} {step : Nat} (reached : Reached db.state userId step)
    (tracks : Tracks userId txn.log db.state (txn.view db.state)) :
    Reached (txn.view db.state) userId step := by
  intro factor shown
  obtain ⟨old, committed, -, from'⟩ := tracks factor shown
  obtain ⟨last, isLast, above⟩ := reached old committed
  cases accepted : acceptedStep userId txn.log with
  | none =>
      rw [accepted] at from'
      exact ⟨last, (show factor.lastAcceptedStep = old.lastAcceptedStep from from') ▸ isLast, above⟩
  | some step' =>
      rw [accepted] at from'
      obtain ⟨value, newer⟩ := from'
      exact ⟨step', value, Nat.le_trans above (Nat.le_of_lt (newer last isLast))⟩

/-- The step that a commit accepts is reached after it. -/
theorem reached_of_accepted {txn : AuthTxn} {step : Nat}
    (accepted : acceptedStep userId txn.log = some step)
    (tracks : Tracks userId txn.log db.state (txn.view db.state)) :
    Reached (txn.view db.state) userId step := by
  intro factor shown
  obtain ⟨old, -, -, from'⟩ := tracks factor shown
  rw [accepted] at from'
  exact ⟨step, from'.1, Nat.le_refl step⟩

/-- The step that a commit accepts is above those of a stretch up to it. -/
theorem StepsRise.rise_commit (rises : StepsRise db) {id : Nat} {txn : AuthTxn}
    (found : db.txns[id]? = some txn) (live : txn.live = true)
    (kept : replacesSecret userId txn.log = false) {earlier stretch : List Nat}
    (history : db.history = earlier ++ stretch) (keeps : KeepsSecret db userId stretch) :
    (acceptedSteps db userId stretch ++ (acceptedStep userId txn.log).toList).Pairwise
      (· < ·) := by
  have before := rises.rise userId earlier stretch [] (by simpa using history) keeps
  refine List.pairwise_append.mpr ⟨before, by cases acceptedStep userId txn.log <;> simp, ?_⟩
  intro step member step' isLast
  obtain ⟨factor, committed, newer⟩ :=
    rises.newer id txn found live userId kept step' (Option.mem_toList.mp isLast)
  obtain ⟨last, isAccepted, above⟩ :=
    rises.reached userId earlier stretch history keeps step member factor committed
  exact Nat.lt_of_le_of_lt above (newer last isAccepted)

/-- After a commit the factor has the steps of a stretch up to it. -/
theorem StepsRise.reached_commit (rises : StepsRise db) (tracked : FactorsTracked db) {id : Nat}
    {txn : AuthTxn} (found : db.txns[id]? = some txn) (live : txn.live = true)
    (kept : replacesSecret userId txn.log = false) {earlier stretch : List Nat}
    (history : db.history = earlier ++ stretch) (keeps : KeepsSecret db userId stretch) :
    ∀ step ∈ acceptedSteps db userId stretch ++ (acceptedStep userId txn.log).toList,
      Reached (txn.view db.state) userId step := by
  have tracks := tracked.tracks id txn found live userId kept
  intro step member
  rcases List.mem_append.mp member with old | last
  · exact (rises.reached userId earlier stretch history keeps step old).commit tracks
  · exact reached_of_accepted (Option.mem_toList.mp last) tracks

theorem StepsRise.effect (rises : StepsRise db) (tracked : FactorsTracked db)
    (recorded : db.Recorded) (effect : Db.Effect (authService primitives) admits time db db') :
    StepsRise db' where
  newer j t present live userId kept step accepted :=
    rises.newer_effect tracked effect present live kept accepted
  rise userId earlier stretch later history keeps := by
    rcases effect.still_or_commit with ⟨still, -⟩ | ⟨id, txn, found, live, isCommitted, grown, -⟩
    · rw [still] at history
      obtain ⟨kept, steps⟩ := keeps.of_past recorded effect fun id member => by
        simp [history, member]
      rw [steps]
      exact rises.rise userId earlier stretch later history kept
    · rw [grown] at history
      rcases List.eq_nil_or_concat later with rfl | ⟨rest, last, rfl⟩
      · rcases List.eq_nil_or_concat stretch with rfl | ⟨rest, last, rfl⟩
        · exact List.Pairwise.nil
        · rw [List.concat_eq_append] at history keeps ⊢
          obtain ⟨before, quiet, kept, steps⟩ :=
            keeps.of_last recorded effect isCommitted (by simpa using history)
          rw [steps]
          exact rises.rise_commit found live quiet before kept
      · rw [List.concat_eq_append, ← List.append_assoc] at history
        obtain ⟨before, -⟩ := List.append_inj' history rfl
        obtain ⟨kept, steps⟩ := keeps.of_past recorded effect fun id member => by
          simp [before, member]
        rw [steps]
        exact rises.rise userId earlier stretch rest before kept
  reached userId earlier stretch history keeps := by
    rcases effect.still_or_commit with
      ⟨still, state⟩ | ⟨id, txn, found, live, isCommitted, grown, state⟩
    · rw [still] at history
      obtain ⟨kept, steps⟩ := keeps.of_past recorded effect fun id member => by
        simp [history, member]
      rw [steps, state]
      exact rises.reached userId earlier stretch history kept
    · rw [grown] at history
      rcases List.eq_nil_or_concat stretch with rfl | ⟨rest, last, rfl⟩
      · exact fun _ member => nomatch member
      · rw [List.concat_eq_append] at history keeps ⊢
        obtain ⟨before, quiet, kept, steps⟩ := keeps.of_last recorded effect isCommitted history
        rw [steps, state]
        exact rises.reached_commit tracked found live quiet before kept

end Effect

/-- The steps that are accepted, with what their rise rests on. -/
structure Climbs (primitives : Primitives) (db : AuthDb) : Prop where
  locking : db.Locking (authService primitives)
  tracked : FactorsTracked db
  recorded : db.Recorded
  rises : StepsRise db

theorem StepsRise.initial : StepsRise { state := .empty } where
  newer _ _ found := by simp at found
  rise userId earlier stretch later history _ := by
    obtain ⟨-, rfl, -⟩ : earlier = [] ∧ stretch = [] ∧ later = [] := by
      simpa using history.symm
    exact List.Pairwise.nil
  reached userId earlier stretch history _ := by
    obtain ⟨-, rfl⟩ : earlier = [] ∧ stretch = [] := by simpa using history.symm
    exact fun _ member => nomatch member

variable (primitives : Primitives)

theorem Climbs.initial : Climbs primitives { state := .empty } :=
  ⟨locking_initial primitives, .initial, ⟨List.nodup_nil, fun id => by simp⟩, .initial⟩

theorem Climbs.effect {primitives : Primitives} {admits : AuthCall → Prop} {time : Nat}
    {db db' : AuthDb} (climbs : Climbs primitives db)
    (effect : Db.Effect (authService primitives) admits time db db') : Climbs primitives db' where
  locking := climbs.locking.effect effect
  tracked := climbs.tracked.effect (climbs.locking.effect effect) effect
  recorded := climbs.recorded.effect effect
  rises := climbs.rises.effect climbs.tracked climbs.recorded effect

theorem climbs_inductive :
    (accountSystem primitives).Inductive fun world => Climbs primitives world.db :=
  inductive_onDb (.initial primitives) fun _ _ climbs effect => climbs.effect effect

/-! ## Accepted steps have been verified -/

/-- The presented code is the code of the step for a secret of the user that the call has
read, and the step is next to a reading of the clock. -/
def HasVerified (userId : Uuid) (txn : AuthTxn) (step : Nat) : Prop :=
  ∃ value secret factor read seen moment,
    mfaValue? txn.call.request = some value ∧
    .ran (.getMfaFactor read) [.factor factor] seen ∈ txn.log ∧ factor.userId = userId ∧
    secretOf primitives factor = some secret ∧
    (primitives.totpCode secret step).map text = some value ∧
    .clock moment ∈ txn.log ∧
    moment / seconds 30 ≤ step + 1 ∧ step ≤ moment / seconds 30 + 1

theorem readBy_cases {before : Option MfaFactor} {event : AuthEvent} {factor : MfaFactor}
    (read : readBy before event = some factor) :
    before = some factor ∨
      ∃ userId seen, event = .ran (.getMfaFactor userId) [.factor factor] seen := by
  unfold readBy at read
  split at read
  · obtain rfl := Option.some.inj read
    exact .inr ⟨_, _, rfl⟩
  · exact .inl read
  · exact .inl read
  · cases read
  · exact .inl read

/-- The factor that a log has read last has been read. -/
theorem ran_of_lastRead {log : List AuthEvent} {factor : MfaFactor}
    (read : lastRead log = some factor) :
    ∃ userId seen, .ran (.getMfaFactor userId) [.factor factor] seen ∈ log := by
  induction log using List.reverseRecOn with
  | nil => cases read
  | append_singleton log event ih =>
      rw [lastRead_append] at read
      rcases readBy_cases read with before | ⟨userId, seen, rfl⟩
      · obtain ⟨userId, seen, ran⟩ := ih before
        exact ⟨userId, seen, List.mem_append_left _ ran⟩
      · exact ⟨userId, seen, List.mem_append_right _ (List.mem_singleton_self _)⟩

theorem hasVerified_of_acceptedStep {primitives : Primitives} {world : AccountWorld}
    (reachable : (accountSystem primitives).Reachable world) {id : Nat} {txn : AuthTxn}
    (found : world.db.txns[id]? = some txn) {userId : Uuid} {step : Nat}
    (accepted : acceptedStep userId txn.log = some step) :
    HasVerified primitives userId txn step := by
  obtain ⟨now, row, rows, seen, ran⟩ := ran_of_acceptedStep accepted
  obtain ⟨earlier, later, log⟩ := List.append_of_mem ran
  have due := (((due_inductive primitives).of_reachable reachable) id txn found).here
  obtain ⟨-, factor, last, moment, isLast, owner, clock, value, secret, presented, opened,
    matched⟩ := due.logged earlier _ _ seen later log
  obtain ⟨read, seen', ran'⟩ := ran_of_lastRead isLast
  obtain ⟨isCode, early, late, -⟩ := Authentication.matchTotpStep_spec matched
  rw [HasVerified, log]
  exact ⟨value, secret, factor, read, seen', moment, presented, List.mem_append_left _ ran', owner,
    opened, isCode, List.mem_append_left _ clock, early, late⟩

/-! ## The result -/

/-- **Accepted steps rise.**  In every reachable world, over every stretch of the history in
which no commit has replaced the secret of a user, the steps that were accepted for the user
grow from one commit to the next, and each of them has been verified. -/
theorem acceptedSteps_rise (primitives : Primitives) {world : AccountWorld}
    (reachable : (accountSystem primitives).Reachable world) (userId : Uuid)
    {earlier stretch later : List Nat} (history : world.db.history = earlier ++ stretch ++ later)
    (keeps : KeepsSecret world.db userId stretch) :
    (acceptedSteps world.db userId stretch).Pairwise (· < ·) ∧
      ∀ step ∈ acceptedSteps world.db userId stretch, ∃ id ∈ stretch, ∃ txn : AuthTxn,
        world.db.txns[id]? = some txn ∧ acceptedStep userId txn.log = some step ∧
          HasVerified primitives userId txn step := by
  have rises := ((climbs_inductive primitives).of_reachable reachable).rises
  refine ⟨rises.rise userId earlier stretch later history keeps, fun step member => ?_⟩
  obtain ⟨id, isIn, txn, found, accepted⟩ := mem_acceptedSteps.mp member
  exact ⟨id, isIn, txn, found, accepted, hasVerified_of_acceptedStep reachable found accepted⟩

/-- The first owner enrolls, and signs in with its authenticator a minute later. -/
def ownerReturns : List AccountAction :=
  ownerConfirms ++ [.commit 2, .tick (seconds 60)] ++
    [.begin (.login "owner" (text "correct horse") ⟨"login", "ip", 0⟩) (drawn 4 "d" "222222")] ++
    performs 3 [false, false, false, true, false] ++ [.commit 3] ++
    [.begin (.completeMfa "d" (text "111111") none) (drawn 5 "e" "000004")] ++
    performs 4 [true, false, false, false, true, false, false, false, true, false] ++ [.commit 4]

theorem acceptedSteps_rise_owner : ∃ world : AccountWorld,
    world.db.history = [0, 1] ++ [2, 3, 4] ++ [] ∧ acceptedSteps world.db 1 [2, 3, 4] = [0, 2] ∧
      ([0, 2].Pairwise (· < ·) ∧ ∀ step ∈ [0, 2], ∃ id ∈ [2, 3, 4], ∃ txn : AuthTxn,
        world.db.txns[id]? = some txn ∧ acceptedStep 1 txn.log = some step ∧
          HasVerified plain 1 txn step) := by
  have ran : ((accountSystem plain).exec (.start {}) ownerReturns).any (fun world =>
      decide (world.db.history = [0, 1] ++ [2, 3, 4] ++ [] ∧
        acceptedSteps world.db 1 [2, 3, 4] = [0, 2] ∧ KeepsSecret world.db 1 [2, 3, 4])) =
      true := by
    decide +kernel
  obtain ⟨world, returned, facts⟩ := (Option.any_eq_true _ _).mp ran
  obtain ⟨history, steps, keeps⟩ := of_decide_eq_true facts
  refine ⟨world, history, steps, ?_⟩
  rw [← steps]
  exact acceptedSteps_rise plain ⟨.start {}, ⟨_, rfl⟩, System.leads_of_exec returned⟩ 1 history
    keeps

end OpsComposer.Accounts
