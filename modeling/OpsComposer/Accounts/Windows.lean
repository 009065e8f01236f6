import OpsComposer.Accounts.Verifications

/-!
# Verifications under way

Between reading a factor and using it a call verifies a code against its secret, and no
lock keeps the factor in place.  A `Window` says which factor a transaction is verifying;
`Current` says that the factors under verification still have the envelopes that were
read.  It holds in runs in which no transaction that has replaced a secret commits during
a verification for the same user.
-/

set_option autoImplicit false

namespace OpsComposer.Accounts

open Domain Foundations Repositories Services

/-- What a transaction is verifying: the factor that it has read and is going to use. -/
abbrev Window := AuthCall → List AuthEvent → AuthProgram Unit → Option MfaFactor

/-- A window opens when a factor is read, and closes by itself: the clock and statements
that replace no secret may come between. -/
structure Window.Opens (window : Window) : Prop where
  start : ∀ call program, window call [] program = none
  clock : ∀ call log now next factor, window call (log ++ [.clock now]) (next now) = some factor →
    window call log (.clock next) = some factor
  run : ∀ call log statement rows seen next factor,
    window call (log ++ [.ran statement rows seen]) (next rows) = some factor →
      (∃ userId, statement = .getMfaFactor userId ∧ rows = [.factor factor]) ∨
        (window call log (.run statement next) = some factor ∧
          ∀ put, statement ≠ .putMfaFactor put)

/-- The factors that unfinished transactions are verifying have the envelopes that they
have read. -/
def Current (window : Window) (db : AuthDb) : Prop :=
  ∀ (id : Nat) (txn : AuthTxn), db.txns[id]? = some txn → txn.live = true →
    ∀ factor ∈ window txn.call txn.log txn.program, ∀ row,
      (txn.view db.state).factors.lookup factor.userId = some row → SameEnvelope factor row

/-- No transaction that has replaced a secret commits while another one is verifying a
factor of the same user. -/
def Undisturbed (window : Window) (world : AccountWorld) : AccountAction → Prop
  | .commit id => ∀ txn ∈ world.db.txns[id]?, ∀ other ∈ world.db.others id,
      ∀ factor ∈ window other.call other.log other.program,
        replacesSecret factor.userId txn.log = false
  | _ => True

instance (window : Window) (world : AccountWorld) (action : AccountAction) :
    Decidable (Undisturbed window world action) :=
  match action with
  | .commit id =>
      inferInstanceAs (Decidable (∀ txn ∈ world.db.txns[id]?, ∀ other ∈ world.db.others id,
        ∀ factor ∈ window other.call other.log other.program,
          replacesSecret factor.userId txn.log = false))
  | .tick _ | .restart _ | .resolve _ | .begin _ _ | .clock _ | .snapshot _ | .perform _ | .check _
  | .abort _ => instDecidableTrue

section Effect

variable {primitives : Primitives} {admits : AuthCall → Prop} {time : Nat} {window : Window}
  {db db' : AuthDb}

/-- A statement that replaces no secret leaves the envelope of the factor that is seen. -/
theorem envelope_of_performed {id : Nat} {txn : AuthTxn} {statement : AuthStatement}
    {shown : List AuthRow} {writes : List (Write AuthKey AuthRow)}
    (result : db.performed (authService primitives) id txn statement = some (some (shown, writes)))
    (kept : ∀ put, statement ≠ .putMfaFactor put) {userId : Uuid} {row : MfaFactor}
    (found : (RowStore.applyAll db.state (txn.writes ++ writes)).factors.lookup userId = some row) :
    ∃ old, (txn.view db.state).factors.lookup userId = some old ∧ SameEnvelope old row := by
  rcases Db.performed_row result (AuthKey.factor userId) with ⟨-, same⟩ | ⟨-, change⟩
  · exact ⟨row, (lookup_factor_congr same).symm.trans found, .refl row⟩
  · rw [lookup_factor.mpr found] at change
    rcases factor_of_change (authChange_of_changes change) with ⟨put, isPut, -⟩ |
      ⟨old, before, -, envelope, -⟩
    · exact absurd isPut (kept put)
    · exact ⟨old, lookup_factor.mp before, envelope⟩

/-- A transaction that reads a factor sees it. -/
theorem factor_of_performed (waiting : db.Waiting (authService primitives)) {id : Nat}
    {txn : AuthTxn} (found : db.txns[id]? = some txn) {userId : Uuid} {factor : MfaFactor}
    {writes : List (Write AuthKey AuthRow)}
    (next : txn.program.next? = some (.getMfaFactor userId))
    (result : db.performed (authService primitives) id txn (.getMfaFactor userId) =
      some (some ([.factor factor], writes))) :
    (txn.view db.state).factors.lookup userId = some factor ∧ writes = [] := by
  have done := (Db.of_performed result).2
  rw [Db.snapshotFor_of_select waiting found next fun _ => rfl] at done
  obtain ⟨shown, rfl⟩ : [AuthRow.factor factor] =
      (AuthRepository.getMfaFactor (txn.view db.state) userId).toList.map .factor ∧ writes = [] := by
    simpa [authService, AuthStatement.meaning, Command.perform, eq_comm] using done
  refine ⟨?_, rfl⟩
  cases seen : AuthRepository.getMfaFactor (txn.view db.state) userId with
  | none => simp [seen] at shown
  | some other =>
      obtain rfl : factor = other := by simpa [seen] using shown
      exact seen

theorem Current.effect (current : Current window db) (opens : window.Opens)
    (waiting : db.Waiting (authService primitives)) (tracked : FactorsTracked db)
    (undisturbed : ∀ id, db'.history = db.history ++ [id] → ∀ txn ∈ db.txns[id]?,
      ∀ other ∈ db.others id, ∀ factor ∈ window other.call other.log other.program,
        replacesSecret factor.userId txn.log = false)
    (effect : Db.Effect (authService primitives) admits time db db') : Current window db' := by
  intro j t present live factor isRead row found
  cases effect with
  | begun _ =>
      rcases Db.of_getElem?_append present with ⟨-, rfl⟩ | old
      · cases (opens.start _ _).symm.trans isRead
      · exact current j t old live factor isRead row found
  | @moved id txn txn' isTxn moves =>
      rcases Db.of_getElem?_set isTxn present with ⟨rfl, rfl⟩ | ⟨-, old⟩
      · have before := current id txn isTxn moves.live factor
        cases moves with
        | clock _ stands =>
            refine before ?_ row found
            rw [stands]
            exact opens.clock _ _ _ _ _ isRead
        | snapshot _ _ _ | checked _ _ _ _ _ => exact before isRead row found
        | aborted _ => simp [Txn.live] at live
        | performed _ stands result =>
            rcases opens.run _ _ _ _ _ _ _ isRead with ⟨userId, rfl, rfl⟩ | ⟨open', kept⟩
            · obtain ⟨seen, rfl⟩ := factor_of_performed waiting isTxn (by rw [stands]; rfl) result
              have owner : factor.userId = userId := Table.key_of_lookup seen
              rw [← owner] at seen
              have same : row = factor := by
                have shown : (txn.view db.state).factors.lookup factor.userId = some row := by
                  simpa [Db.afterStatement, Db.replace, Txn.view] using found
                exact Option.some.inj (shown.symm.trans seen)
              exact same ▸ .refl factor
            · obtain ⟨old, shown, envelope⟩ := envelope_of_performed result kept found
              exact (before (by rw [stands]; exact open') old shown).trans envelope
      · exact current j t old live factor isRead row found
  | @committed id txn _ isTxn _ ready =>
      rcases Db.of_getElem?_set isTxn present with ⟨rfl, rfl⟩ | ⟨apart, old⟩
      · simp [Txn.live] at live
      · have txnLive : txn.live = true := by
          rcases ready with checked | ⟨running, -⟩
          · simp [Txn.live, checked]
          · simp [Txn.live, running]
        have before := current j t old live factor isRead
        have shown := Db.view_commit t txn db.state (AuthKey.factor factor.userId)
        by_cases held : AuthKey.factor factor.userId ∈ t.holds
        · rw [if_pos held] at shown
          exact before row ((lookup_factor_congr shown).symm.trans found)
        · rw [if_neg held] at shown
          have kept := undisturbed id rfl txn isTxn t
            (Db.mem_others.mpr ⟨j, Ne.symm apart, old, live⟩) factor isRead
          obtain ⟨first, committed, envelope, -⟩ :=
            tracked.tracks id txn isTxn txnLive factor.userId kept row
              ((lookup_factor_congr shown).symm.trans found)
          have seen := lookup_factor_congr (Db.view_of_not_held db.state held)
          exact (before first (seen.trans committed)).trans envelope

end Effect

/-- Queries see the present state in every reachable world. -/
theorem waiting_inductive (primitives : Primitives) :
    (accountSystem primitives).Inductive fun world =>
      world.db.Waiting (authService primitives) :=
  inductive_onDb (fun _ _ found => by simp at found) fun _ _ waiting effect =>
    waiting.effect effect

end OpsComposer.Accounts
