import OpsComposer.Accounts.Statements
import Mathlib.Data.List.Induction

/-!
# What transactions do to a TOTP factor

The row of a factor changes in three ways: its secret is replaced, it is confirmed, or
a step is accepted.  `Tracks` says what a transaction that has not replaced the secret
makes of the committed row: it shows the same envelope, and the step that its log has
accepted last, or the committed one.
-/

set_option autoImplicit false

namespace OpsComposer.Accounts

open Domain Foundations Repositories Services

/-! ## The factor that a key shows -/

variable {row : AuthRow} {store : AuthStore} {log : List AuthEvent} {rows : List AuthRow}
  {now step : Nat} {primitives : Primitives} {userId : Uuid}

theorem lookup_factor {factor : MfaFactor} :
    RowStore.lookup store (.factor userId) = some (.factor factor) ↔
      store.factors.lookup userId = some factor := by
  show (store.factors.lookup userId).map AuthRow.factor = some (.factor factor) ↔ _
  simp

theorem lookup_factor_congr {store' : AuthStore}
    (same : RowStore.lookup store (.factor userId) = RowStore.lookup store' (.factor userId)) :
    store.factors.lookup userId = store'.factors.lookup userId := by
  refine Option.map_injective (fun f g equal => ?_) same
  exact AuthRow.factor.inj equal

/-- Two rows have the same secret, encrypted under the same key. -/
def SameEnvelope (factor other : MfaFactor) : Prop :=
  factor.encryptedTotpSecret = other.encryptedTotpSecret ∧
    factor.encryptionKeyVersion = other.encryptionKeyVersion

theorem SameEnvelope.refl (factor : MfaFactor) : SameEnvelope factor factor := ⟨rfl, rfl⟩

theorem SameEnvelope.trans {f g h : MfaFactor} (first : SameEnvelope f g)
    (second : SameEnvelope g h) : SameEnvelope f h :=
  ⟨first.1.trans second.1, first.2.trans second.2⟩

/-- The plaintext in the envelope of a row. -/
def secretOf (primitives : Primitives) (factor : MfaFactor) : Option String :=
  primitives.decryptTotp factor.userId factor.encryptedTotpSecret factor.encryptionKeyVersion

theorem SameEnvelope.secretOf {f g : MfaFactor} (same : SameEnvelope f g)
    (owner : f.userId = g.userId) : secretOf primitives f = secretOf primitives g := by
  unfold Accounts.secretOf
  rw [owner, same.1, same.2]

/-! ## What a log says about a factor -/

/-- The log has replaced the user's secret. -/
def replacesSecret (userId : Uuid) (log : List AuthEvent) : Bool :=
  log.any fun
    | .ran (.putMfaFactor factor) _ _ => factor.userId = userId
    | _ => false

@[simp] theorem replacesSecret_append {later : List AuthEvent} :
    replacesSecret userId (log ++ later) =
      (replacesSecret userId log || replacesSecret userId later) :=
  List.any_append

/-- The step that one more event accepts for the user's factor. -/
def acceptedBy (userId : Uuid) (before : Option Nat) : AuthEvent → Option Nat
  | .ran (.acceptTotpStep userId' step _) (_ :: _) _ =>
      if userId' = userId then some step else before
  | _ => before

/-- The step that a log has accepted last for the user's factor. -/
def acceptedStep (userId : Uuid) (log : List AuthEvent) : Option Nat :=
  log.foldl (acceptedBy userId) none

@[simp] theorem acceptedStep_snoc {event : AuthEvent} :
    acceptedStep userId (log ++ [event]) = acceptedBy userId (acceptedStep userId log) event := by
  simp [acceptedStep]

theorem acceptedBy_cases (userId : Uuid) (before : Option Nat) (event : AuthEvent) :
    acceptedBy userId before event = before ∨
      ∃ step now row rows seen, event = .ran (.acceptTotpStep userId step now) (row :: rows) seen ∧
        acceptedBy userId before event = some step := by
  unfold acceptedBy
  split
  · split
    · rename_i same
      subst same
      exact .inr ⟨_, _, _, _, _, rfl, rfl⟩
    · exact .inl rfl
  · exact .inl rfl

/-- An accepted step has been accepted by a statement of the log. -/
theorem ran_of_acceptedStep (accepted : acceptedStep userId log = some step) :
    ∃ now row rows seen,
      .ran (.acceptTotpStep userId step now) (row :: rows) seen ∈ log := by
  induction log using List.reverseRecOn with
  | nil => cases accepted
  | append_singleton log event ih =>
      rw [acceptedStep_snoc] at accepted
      rcases acceptedBy_cases userId (acceptedStep userId log) event with
        same | ⟨step', now, row, rows, seen, rfl, value⟩
      · obtain ⟨now, row, rows, seen, member⟩ := ih (same ▸ accepted)
        exact ⟨now, row, rows, seen, List.mem_append_left _ member⟩
      · obtain rfl : step' = step := Option.some.inj (value.symm.trans accepted)
        exact ⟨now, row, rows, seen, List.mem_append_right _ (List.mem_singleton_self _)⟩

/-! ## Statements -/

/-- An update of the factor of one user that returns a row has written that factor. -/
theorem locks_factor {statement : AuthStatement}
    {condition : MfaFactor → Bool} {f : MfaFactor → MfaFactor}
    (keeps : ∀ factor, (f factor).userId = factor.userId)
    (meaning : ∀ store, (authService primitives).meaning statement store =
      .set (AuthRow.factors.meets condition) (AuthRow.factors.map f)
        (AuthRow.factors.map_keeps fun factor => congrArg AuthKey.factor (keeps factor)))
    (owned : ∀ factor, condition factor = true → factor.userId = userId) :
    (authService primitives).Locks statement (row :: rows) (.factor userId) := by
  intro snapshot current writes done
  rw [meaning] at done
  obtain ⟨shown, rfl⟩ := Command.perform_set done
  have member : row ∈ (Command.found snapshot current (AuthRow.factors.meets condition)).map
      (AuthRow.factors.map f) := shown ▸ List.mem_cons_self ..
  obtain ⟨old, isFound, rfl⟩ := List.mem_map.mp member
  obtain ⟨factor, rfl, holds⟩ := AuthRow.factors.meets_iff.mp (Command.mem_found.mp isFound).2.1
  refine RowStore.mem_touched.mpr ⟨_, List.mem_cons_self .., ?_⟩
  rw [RowKind.map_wrap]
  exact congrArg AuthKey.factor ((keeps factor).trans (owned factor holds))

theorem locks_acceptTotpStep (primitives : Primitives) :
    (authService primitives).Locks (.acceptTotpStep userId step now) (row :: rows)
      (.factor userId) :=
  locks_factor (by exact fun _ => rfl) (fun _ => rfl) fun factor accepts =>
    (show AuthRepository.AcceptsStep userId step factor from of_decide_eq_true accepts).1

theorem locks_confirmMfaFactor (primitives : Primitives) :
    (authService primitives).Locks (.confirmMfaFactor userId now) (row :: rows)
      (.factor userId) :=
  locks_factor (by exact fun _ => rfl) (fun _ => rfl) fun _ named => of_decide_eq_true named

/-- Accepting a step returns the rows that it writes. -/
theorem shown_of_acceptTotpStep
    {snapshot current : AuthStore} {shown : List AuthRow}
    {writes : List (Write AuthKey AuthRow)}
    (done : ((authService primitives).meaning (.acceptTotpStep userId step now) snapshot).perform
      (authService primitives).clash snapshot current = some (shown, writes))
    (wrote : writes ≠ []) : ∃ row rows, shown = row :: rows := by
  obtain ⟨-, rfl⟩ := Command.perform_set done
  exact List.exists_cons_of_ne_nil fun none => wrote (by rw [none, List.map_nil])

/-- A statement that leaves a factor under a key replaces its secret, or it found a
factor there with the same envelope and has confirmed it or accepted a step. -/
theorem factor_of_change {statement : AuthStatement} {before : Option AuthRow} {factor : MfaFactor}
    (change : AuthChange store statement before (some (.factor factor))) :
    (∃ put, statement = .putMfaFactor put ∧ put.userId = factor.userId) ∨
      ∃ old, before = some (.factor old) ∧ old.userId = factor.userId ∧ SameEnvelope old factor ∧
        ((∃ now, statement = .confirmMfaFactor factor.userId now ∧
            factor = { old with confirmedAt := some now, updatedAt := now }) ∨
          ∃ step now, statement = .acceptTotpStep factor.userId step now ∧
            (∀ last ∈ old.lastAcceptedStep, last < step) ∧
            factor = { old with lastAcceptedStep := some step, updatedAt := now }) := by
  cases change with
  | putMfaFactor factor => exact .inl ⟨factor, rfl, rfl⟩
  | replaceMfaFactor old same => exact .inl ⟨_, rfl, same.symm⟩
  | confirmMfaFactor old named =>
      subst named
      exact .inr ⟨old, rfl, rfl, ⟨rfl, rfl⟩, .inl ⟨_, rfl, rfl⟩⟩
  | acceptTotpStep old accepts =>
      obtain ⟨rfl, -, newer⟩ := accepts
      exact .inr ⟨old, rfl, rfl, ⟨rfl, rfl⟩, .inr ⟨_, _, rfl, newer, rfl⟩⟩

/-! ## What a transaction makes of the committed row -/

/-- The step that a transaction shows, given the committed one and the one that its log
has accepted. -/
def StepFrom : Option Nat → Option Nat → Option Nat → Prop
  | none, committed, shown => shown = committed
  | some step, committed, shown => shown = some step ∧ ∀ last ∈ committed, last < step

/-- The factor that the transaction shows has the committed envelope, and the step that
its log has accepted, newer than the committed one, or the committed step. -/
def Tracks (userId : Uuid) (log : List AuthEvent) (before after : AuthStore) : Prop :=
  ∀ factor, after.factors.lookup userId = some factor →
    ∃ old, before.factors.lookup userId = some old ∧ SameEnvelope old factor ∧
      StepFrom (acceptedStep userId log) old.lastAcceptedStep factor.lastAcceptedStep

theorem Tracks.of_same {after : AuthStore} (nothing : acceptedStep userId log = none)
    (same : after.factors.lookup userId = store.factors.lookup userId) :
    Tracks userId log store after := by
  intro factor found
  exact ⟨factor, same ▸ found, .refl factor, nothing ▸ rfl⟩

theorem Tracks.congr {before before' after after' : AuthStore}
    (tracks : Tracks userId log before after)
    (start : before'.factors.lookup userId = before.factors.lookup userId)
    (finish : after'.factors.lookup userId = after.factors.lookup userId) :
    Tracks userId log before' after' := by
  intro factor found
  obtain ⟨old, committed, same, step⟩ := tracks factor (finish ▸ found)
  exact ⟨old, start ▸ committed, same, step⟩

/-- Accepting a newer step. -/
theorem StepFrom.accept {accepted committed shown : Option Nat}
    (stepFrom : StepFrom accepted committed shown) (newer : ∀ last ∈ shown, last < step) :
    StepFrom (some step) committed (some step) := by
  refine ⟨rfl, fun last isLast => ?_⟩
  cases accepted with
  | none =>
      have same : shown = committed := stepFrom
      exact newer last (same ▸ isLast)
  | some earlier =>
      obtain ⟨rfl, before⟩ := stepFrom
      exact Nat.lt_trans (before last isLast) (newer earlier rfl)

section Step

variable {primitives : Primitives} {db : AuthDb} {id : Nat} {txn : AuthTxn}
  {statement : AuthStatement} {shown : List AuthRow} {writes : List (Write AuthKey AuthRow)}

/-- A statement that is performed keeps to the committed factor, unless it replaces the
secret. -/
theorem Tracks.performed {userId : Uuid} {seen : Nat}
    (result : db.performed (authService primitives) id txn statement = some (some (shown, writes)))
    (tracks : Tracks userId txn.log db.state (txn.view db.state))
    (kept : replacesSecret userId [.ran statement shown seen] = false) :
    Tracks userId (txn.log ++ [.ran statement shown seen]) db.state
      (RowStore.applyAll db.state (txn.writes ++ writes)) := by
  intro factor found
  rw [acceptedStep_snoc]
  have done := (Db.of_performed result).2
  rcases Db.performed_row result (AuthKey.factor userId) with ⟨untouched, same⟩ | ⟨touched, change⟩
  · obtain ⟨old, committed, envelope, step⟩ :=
      tracks factor ((lookup_factor_congr same).symm.trans found)
    refine ⟨old, committed, envelope, ?_⟩
    rcases acceptedBy_cases userId (acceptedStep userId txn.log) (.ran statement shown seen) with
      quiet | ⟨_, _, row, rows, _, event, -⟩
    · rw [quiet]
      exact step
    · obtain ⟨rfl, rfl, -⟩ := Event.ran.inj event
      exact absurd (locks_acceptTotpStep primitives _ _ _ done) untouched
  · rw [lookup_factor.mpr found] at change
    have owner : factor.userId = userId := Table.key_of_lookup found
    rcases factor_of_change (authChange_of_changes change) with ⟨put, rfl, same⟩ |
      ⟨old, before, -, envelope, ⟨now, rfl, value⟩ | ⟨step, now, rfl, newer, value⟩⟩
    · simp [replacesSecret, same, owner] at kept
    · obtain ⟨first, committed, envelope', stepFrom⟩ := tracks old (lookup_factor.mp before)
      refine ⟨first, committed, envelope'.trans envelope, ?_⟩
      rw [value]
      exact stepFrom
    · obtain ⟨first, committed, envelope', stepFrom⟩ := tracks old (lookup_factor.mp before)
      have wrote : writes ≠ [] := by
        rintro rfl
        cases touched
      obtain ⟨row, rows, rfl⟩ := shown_of_acceptTotpStep done wrote
      refine ⟨first, committed, envelope'.trans envelope, ?_⟩
      rw [acceptedBy, if_pos owner, value]
      exact stepFrom.accept newer

end Step

/-- What the factors of a database are known by. -/
structure FactorsTracked (db : AuthDb) : Prop where
  exclusive : db.Exclusive
  /-- Whoever has accepted a step holds the factor. -/
  locked : ∀ (id : Nat) (txn : AuthTxn), db.txns[id]? = some txn → ∀ userId,
    acceptedStep userId txn.log ≠ none → .factor userId ∈ txn.holds
  tracks : ∀ (id : Nat) (txn : AuthTxn), db.txns[id]? = some txn → txn.live = true →
    ∀ userId, replacesSecret userId txn.log = false →
      Tracks userId txn.log db.state (txn.view db.state)

theorem FactorsTracked.effect {primitives : Primitives} {admits : AuthCall → Prop} {time : Nat}
    {db db' : AuthDb} (tracked : FactorsTracked db) (locking : db'.Locking (authService primitives))
    (effect : Db.Effect (authService primitives) admits time db db') : FactorsTracked db' where
  exclusive := tracked.exclusive.effect effect
  locked id txn found userId accepted := by
    obtain ⟨step, isStep⟩ := Option.ne_none_iff_exists'.mp accepted
    obtain ⟨now, row, rows, seen, ran⟩ := ran_of_acceptedStep isStep
    exact locking id txn found _ _ _ _ ran (locks_acceptTotpStep primitives)
  tracks j t present live userId kept := by
    cases effect with
    | begun _ =>
        rcases Db.of_getElem?_append present with ⟨-, rfl⟩ | old
        · exact .of_same rfl rfl
        · exact tracked.tracks j t old live userId kept
    | @moved id txn txn' found moves =>
        rcases Db.of_getElem?_set found present with ⟨rfl, rfl⟩ | ⟨-, old⟩
        · have before := tracked.tracks id txn found moves.live userId
          cases moves with
          | clock _ _ =>
              obtain ⟨quiet, -⟩ := Bool.or_eq_false_iff.mp (replacesSecret_append ▸ kept)
              intro factor shown
              rw [acceptedStep_snoc]
              exact before quiet factor shown
          | snapshot _ _ _ | checked _ _ _ _ _ => exact before kept
          | aborted _ => simp [Txn.live] at live
          | performed _ _ result =>
              obtain ⟨quiet, now⟩ := Bool.or_eq_false_iff.mp (replacesSecret_append ▸ kept)
              have after := Tracks.performed result (before quiet) now
              exact after
        · exact tracked.tracks j t old live userId kept
    | @committed id txn _ found _ ready =>
        rcases Db.of_getElem?_set found present with ⟨rfl, rfl⟩ | ⟨apart, old⟩
        · simp [Txn.live] at live
        · have txnLive : txn.live = true := by
            rcases ready with checked | ⟨running, -⟩
            · simp [Txn.live, checked]
            · simp [Txn.live, running]
          have shown := Db.view_commit t txn db.state (AuthKey.factor userId)
          by_cases held : AuthKey.factor userId ∈ t.holds
          · rw [if_pos held] at shown
            have free := tracked.exclusive j id t txn (Ne.symm apart) old found live txnLive _ held
            exact (tracked.tracks j t old live userId kept).congr
              (lookup_factor_congr (Db.view_of_not_held db.state free)) (lookup_factor_congr shown)
          · rw [if_neg held] at shown
            refine .of_same ?_ (lookup_factor_congr shown)
            by_contra accepted
            exact held (tracked.locked j t old userId accepted)

theorem FactorsTracked.initial : FactorsTracked { state := .empty } where
  exclusive _ _ _ _ _ found := by simp at found
  locked _ _ found := by simp at found
  tracks _ _ found := by simp at found

theorem locking_initial (primitives : Primitives) :
    Db.Locking (authService primitives) { state := .empty } := fun _ _ found => by simp at found

theorem factorsTracked_inductive (primitives : Primitives) :
    (accountSystem primitives).Inductive fun world =>
      world.db.Locking (authService primitives) ∧ FactorsTracked world.db :=
  inductive_onDb (And.intro (locking_initial primitives) .initial) fun _ _ holds effect =>
    And.intro (holds.1.effect effect) (holds.2.effect (holds.1.effect effect) effect)

end OpsComposer.Accounts
