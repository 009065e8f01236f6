import OpsComposer.Accounts.AcceptedSteps

/-!
# Recovery codes are used once

A recovery code is a row of its own, with an id that is drawn when its set is made.  A call
consumes it by an update that asks for an unused row of the hash.

* `recoveryCode_once` — a code is consumed by one committed transaction at most, and one that
  presented it; and a code that has been used, or whose set has been replaced or reset, is
  never usable again and never consumed from then on.
-/

set_option autoImplicit false

namespace OpsComposer.Accounts

open Domain Foundations Repositories Services

/-! ## Codes -/

/-- The call has drawn the id of the code. -/
def Draws (call : AuthCall) (codeId : Uuid) : Prop :=
  ∃ code ∈ call.fresh.recoveryCodes, code.1 = codeId

/-- There is no unused code in the place. -/
def Unusable : Option AuthRow → Prop
  | some (.recoveryCode code) => code.usedAt ≠ none
  | _ => True

/-- The log has consumed the code, for the user and by the hash. -/
def HasConsumed (log : List AuthEvent) (codeId userId : Uuid) (codeHash : String) : Prop :=
  ∃ now rows seen code, .ran (.consumeRecoveryCode userId codeHash now) rows seen ∈ log ∧
    .recoveryCode code ∈ rows ∧ code.recoveryCodeId = codeId

/-- A committed transaction has consumed the code. -/
def Consumes (db : AuthDb) (codeId : Uuid) (id : Nat) : Prop :=
  ∃ (txn : AuthTxn) (userId : Uuid) (codeHash : String), db.txns[id]? = some txn ∧
    txn.status = .committed ∧ HasConsumed txn.log codeId userId codeHash

/-- A committed transaction has added a code that is not unused any more, or not there. -/
def Retired (db : AuthDb) (codeId : Uuid) : Prop :=
  (∃ (id : Nat) (txn : AuthTxn), db.txns[id]? = some txn ∧ txn.status = .committed ∧
    Draws txn.call codeId) ∧ Unusable (RowStore.lookup db.state (.recoveryCode codeId))

theorem lookup_recoveryCode {store : AuthStore} {codeId : Uuid} {code : RecoveryCode} :
    RowStore.lookup store (.recoveryCode codeId) = some (.recoveryCode code) ↔
      store.recoveryCodes.lookup codeId = some code := by
  show (store.recoveryCodes.lookup codeId).map AuthRow.recoveryCode = _ ↔ _
  simp

/-! ## What a call does to a code -/

/-- A call that has not drawn the id of a code makes it unusable, if it changes it. -/
def CodeTurn (call : AuthCall) (_ : List AuthEvent) (k : AuthKey) (_ new? : Option AuthRow) :
    Prop :=
  ∀ codeId, k = .recoveryCode codeId → Draws call codeId ∨ Unusable new?

/-- A statement that changes the row of a code makes it unusable, or adds one that the call
has drawn. -/
theorem unusable_of_change {primitives : Primitives} {call : AuthCall} {store : AuthStore}
    {statement : AuthStatement} {before after : Option AuthRow} {codeId : Uuid}
    (permitted : Permitted primitives call statement)
    (keyed : ∀ row, after = some row → RowStore.key AuthStore row = .recoveryCode codeId)
    (change : AuthChange store statement before after) : Draws call codeId ∨ Unusable after := by
  cases change with
  | addRecoveryCode code =>
      obtain ⟨⟨row, drawn, same⟩, -⟩ := permitted
      have named : code.recoveryCodeId = codeId := AuthKey.recoveryCode.inj (keyed _ rfl)
      exact .inl ⟨row, drawn, same.trans named⟩
  | consumeRecoveryCode code unused => exact .inr (by simp [Unusable])
  | _ => exact .inr trivial

section Effect

variable {primitives : Primitives} {world : AccountWorld} {db : AuthDb}

theorem codeTurns (reachable : (accountSystem primitives).Reachable world) :
    Db.Turns (authService primitives) CodeTurn world.db where
  longer _ _ _ _ _ _ turn := turn
  performed id txn statement next shown writes found stands result k old? mid? new? before isMid
      isNew change codeId named := by
    have next : txn.program.next? = some statement := by rw [stands]; rfl
    have permitted := permitted_of_next reachable found next
    exact unusable_of_change permitted (named ▸ isNew) (authChange_of_changes change)

/-- The ids that different transactions have drawn are different. -/
def DrawsApart (db : AuthDb) : Prop :=
  ∀ (id id' : Nat) (txn txn' : AuthTxn), db.txns[id]? = some txn → db.txns[id']? = some txn' →
    ∀ codeId, Draws txn.call codeId → Draws txn'.call codeId → id = id'

/-- A transaction is one that was there, with its call, or its call has been admitted. -/
theorem call_before
    (effect : Db.Effect (authService primitives) world.Admits world.clock world.db db) {id : Nat}
    {txn : AuthTxn} (present : db.txns[id]? = some txn) :
    (∃ old, world.db.txns[id]? = some old ∧ old.call = txn.call) ∨
      (id = world.db.txns.length ∧ world.Admits txn.call) := by
  cases effect with
  | begun admitted =>
      rcases Db.of_getElem?_append present with ⟨rfl, rfl⟩ | old
      · exact .inr ⟨rfl, admitted⟩
      · exact .inl ⟨txn, old, rfl⟩
  | moved found moves =>
      rcases Db.of_getElem?_set found present with ⟨rfl, rfl⟩ | ⟨-, old⟩
      · exact .inl ⟨_, found, moves.call.symm⟩
      · exact .inl ⟨txn, old, rfl⟩
  | committed found _ _ =>
      rcases Db.of_getElem?_set found present with ⟨rfl, rfl⟩ | ⟨-, old⟩
      · exact .inl ⟨_, found, rfl⟩
      · exact .inl ⟨txn, old, rfl⟩

theorem DrawsApart.effect (apart : DrawsApart world.db)
    (effect : Db.Effect (authService primitives) world.Admits world.clock world.db db) :
    DrawsApart db := by
  -- a call that has just begun has drawn nothing that another one has
  have fresh : ∀ {call : AuthCall} {id : Nat} {txn : AuthTxn}, world.Admits call →
      world.db.txns[id]? = some txn → ∀ codeId, Draws call codeId → ¬ Draws txn.call codeId := by
    rintro call id txn ⟨⟨-, others⟩, -⟩ found codeId ⟨code, drawn, rfl⟩ ⟨code', drawn', same⟩
    exact (others txn (List.mem_of_getElem? found)).2.2.2 code drawn code' drawn' same.symm
  intro id id' txn txn' present present' codeId draws draws'
  rcases call_before effect present with ⟨old, found, call⟩ | ⟨rfl, admitted⟩
  · rcases call_before effect present' with ⟨old', found', call'⟩ | ⟨rfl, admitted'⟩
    · exact apart id id' old old' found found' codeId (call ▸ draws) (call' ▸ draws')
    · exact absurd (call ▸ draws) (fresh admitted' found codeId draws')
  · rcases call_before effect present' with ⟨old', found', call'⟩ | ⟨rfl, -⟩
    · exact absurd (call' ▸ draws') (fresh admitted found' codeId draws)
    · rfl

variable {code : RecoveryCode}

/-- The statement that a code stems from. -/
theorem added_of_source {statement : AuthStatement}
    (source : Source statement (.recoveryCode code)) :
    ∃ added, statement = .addRecoveryCode added ∧ code.recoveryCodeId = added.recoveryCodeId := by
  cases statement with
  | addRecoveryCode added => exact ⟨added, rfl, source.1⟩
  | _ => exact source.elim

/-- A code that a transaction sees has been drawn by a committed one, or the transaction has
added it. -/
theorem drawn_of_seen (reachable : (accountSystem primitives).Reachable world) {id : Nat}
    {txn : AuthTxn} (found : world.db.txns[id]? = some txn) (live : txn.live = true)
    {codeId : Uuid}
    (seen : RowStore.lookup (txn.view world.db.state) (AuthKey.recoveryCode codeId) =
      some (.recoveryCode code)) :
    (∃ (id' : Nat) (txn' : AuthTxn), world.db.txns[id']? = some txn' ∧
      txn'.status = .committed ∧ Draws txn'.call codeId) ∨ executed isAddCode txn.log = true := by
  have named : code.recoveryCodeId = codeId :=
    AuthKey.recoveryCode.inj (RowStore.key_of_lookup seen)
  have sourced := (sourced_inductive primitives).of_reachable reachable
  rcases sourced.seen id txn found live _ _ seen with
    ⟨id', txn', found', done, statement, rows, at', ran, source⟩ |
      ⟨statement, rows, at', ran, source⟩
  · obtain ⟨added, rfl, same⟩ := added_of_source source
    obtain ⟨⟨row, drawn, isAdded⟩, -⟩ := permitted_of_ran reachable found' ran
    exact .inl ⟨id', txn', found', done, row, drawn, isAdded.trans (same.symm.trans named)⟩
  · obtain ⟨added, rfl, -⟩ := added_of_source source
    exact .inr (executed_iff.mpr ⟨_, _, _, ran, rfl⟩)

/-- A committed code has been drawn by a committed transaction. -/
theorem drawn_of_committed (reachable : (accountSystem primitives).Reachable world) {codeId : Uuid}
    (found : world.db.state.recoveryCodes.lookup codeId = some code) :
    ∃ (id : Nat) (txn : AuthTxn), world.db.txns[id]? = some txn ∧ txn.status = .committed ∧
      Draws txn.call codeId := by
  obtain ⟨id, txn, isTxn, done, statement, rows, seen, ran, source⟩ :=
    ((sourced_inductive primitives).of_reachable reachable).committed _ _
      (lookup_recoveryCode.mpr found)
  obtain ⟨added, rfl, same⟩ := added_of_source source
  obtain ⟨⟨row, drawn, isAdded⟩, -⟩ := permitted_of_ran reachable isTxn ran
  have named : code.recoveryCodeId = codeId := Table.key_of_lookup found
  exact ⟨id, txn, isTxn, done, row, drawn, isAdded.trans (same.symm.trans named)⟩

/-! ## Codes under way -/

/-- A code that a transaction under way has consumed is committed unused, and unusable to the
transaction. -/
def ConsumesUnused (db : AuthDb) : Prop :=
  ∀ (id : Nat) (txn : AuthTxn), db.txns[id]? = some txn → txn.live = true →
    ∀ codeId userId codeHash, HasConsumed txn.log codeId userId codeHash →
      (∃ code, db.state.recoveryCodes.lookup codeId = some code ∧
        AuthRepository.Unused userId codeHash code) ∧
        Unusable (RowStore.lookup (txn.view db.state) (.recoveryCode codeId))

/-- A statement that returns a consumed code has written it. -/
theorem locks_consumeRecoveryCode {userId : Uuid} {codeHash : String} {now : Nat}
    {rows : List AuthRow} (member : .recoveryCode code ∈ rows) :
    (authService primitives).Locks (.consumeRecoveryCode userId codeHash now) rows
      (.recoveryCode code.recoveryCodeId) := by
  intro snapshot current writes done
  obtain ⟨-, rfl⟩ := Command.perform_set done
  exact RowStore.mem_touched.mpr ⟨_, List.mem_map_of_mem member, rfl⟩

/-- What is known of the codes of a database. -/
structure CodesKnown (primitives : Primitives) (db : AuthDb) : Prop where
  climbs : Climbs primitives db
  turned : db.Turned CodeTurn
  apart : DrawsApart db
  unused : ConsumesUnused db

variable {id : Nat} {txn : AuthTxn} {codeId userId : Uuid} {codeHash : String}

/-- No transaction under way has drawn a code that a committed one has. -/
theorem not_draws (known : CodesKnown primitives world.db) (found : world.db.txns[id]? = some txn)
    (live : txn.live = true)
    (drawn : ∃ (id' : Nat) (txn' : AuthTxn), world.db.txns[id']? = some txn' ∧
      txn'.status = .committed ∧ Draws txn'.call codeId) : ¬ Draws txn.call codeId := by
  intro draws
  obtain ⟨id', txn', found', done, draws'⟩ := drawn
  obtain rfl := known.apart id id' txn txn' found found' codeId draws draws'
  obtain rfl := Option.some.inj (found.symm.trans found')
  simp [Txn.live, done] at live

/-- A transaction consumes what is committed unused. -/
theorem unused_of_performed (reachable : (accountSystem primitives).Reachable world)
    (known : CodesKnown primitives world.db) (found : world.db.txns[id]? = some txn)
    (live : txn.live = true) {now : Nat} {rows : List AuthRow} {code : RecoveryCode}
    {writes : List (Write AuthKey AuthRow)} (member : .recoveryCode code ∈ rows)
    (next : txn.program.next? = some (.consumeRecoveryCode userId codeHash now))
    (result : world.db.performed (authService primitives) id txn
      (.consumeRecoveryCode userId codeHash now) = some (some (rows, writes))) :
    (∃ old, world.db.state.recoveryCodes.lookup code.recoveryCodeId = some old ∧
      AuthRepository.Unused userId codeHash old) ∧
      Unusable (RowStore.lookup (RowStore.applyAll world.db.state (txn.writes ++ writes))
        (AuthKey.recoveryCode code.recoveryCodeId)) := by
  have written := locks_consumeRecoveryCode member _ _ _ (Db.of_performed result).2
  rcases Db.performed_row result (AuthKey.recoveryCode code.recoveryCodeId) with
    ⟨untouched, -⟩ | ⟨-, change⟩
  · exact absurd written untouched
  · obtain ⟨old, before, met, after⟩ := changes_setRows change
    have isUnused : AuthRepository.Unused userId codeHash old := of_decide_eq_true met
    have committed : RowStore.lookup (txn.view world.db.state)
        (AuthKey.recoveryCode code.recoveryCodeId) =
          RowStore.lookup world.db.state (.recoveryCode code.recoveryCodeId) := by
      rcases known.turned id txn found live (.recoveryCode code.recoveryCodeId) with same | turn
      · exact same
      · exfalso
        rcases turn _ rfl with draws | unusable
        · rcases drawn_of_seen reachable found live before with drawn | added
          · exact not_draws known found live drawn draws
          · have first := (due_of_next reachable found next).1
            exact absurd (first.symm.trans added) (by simp)
        · rw [before] at unusable
          exact unusable isUnused.2.2
    rw [committed] at before
    refine ⟨⟨old, lookup_recoveryCode.mp before, isUnused⟩, ?_⟩
    rw [after]
    exact fun none => nomatch none

/-- **One step**: what is consumed is committed unused. -/
theorem ConsumesUnused.effect (reachable : (accountSystem primitives).Reachable world)
    (known : CodesKnown primitives world.db)
    (effect : Db.Effect (authService primitives) world.Admits world.clock world.db db) :
    ConsumesUnused db := by
  rintro j t present live codeId userId codeHash ⟨now, rows, seen, code, ran, member, rfl⟩
  have earlier : ∀ {log : List AuthEvent},
      .ran (.consumeRecoveryCode userId codeHash now) rows seen ∈ log →
        HasConsumed log code.recoveryCodeId userId codeHash := fun ran =>
    ⟨now, rows, seen, code, ran, member, rfl⟩
  cases effect with
  | begun _ =>
      rcases Db.of_getElem?_append present with ⟨-, rfl⟩ | old
      · cases ran
      · exact known.unused j t old live _ _ _ (earlier ran)
  | @moved id txn txn' found moves =>
      rcases Db.of_getElem?_set found present with ⟨rfl, rfl⟩ | ⟨-, old⟩
      · have before := known.unused id txn found moves.live code.recoveryCodeId userId codeHash
        cases moves with
        | clock _ _ =>
            rcases List.mem_append.mp ran with ran | last
            · exact before (earlier ran)
            · simp at last
        | snapshot _ _ _ | checked _ _ _ _ _ => exact before (earlier ran)
        | aborted _ => simp [Txn.live] at live
        | @performed statement next shown writes running stands result =>
            have isNext : txn.program.next? = some statement := by rw [stands]; rfl
            have txnLive : txn.live = true := by simp [Txn.live, running]
            rcases List.mem_append.mp ran with ran | last
            · obtain ⟨⟨old, committed, isUnused⟩, unusable⟩ := before (earlier ran)
              refine ⟨⟨old, committed, isUnused⟩, ?_⟩
              show Unusable (RowStore.lookup
                (RowStore.applyAll world.db.state (txn.writes ++ writes)) _)
              rcases Db.performed_row result (AuthKey.recoveryCode code.recoveryCodeId) with
                ⟨-, same⟩ | ⟨-, change⟩
              · rw [same]
                exact unusable
              · have permitted := permitted_of_next reachable found isNext
                rcases unusable_of_change permitted (fun row => RowStore.key_of_lookup)
                    (authChange_of_changes change) with draws | after
                · have drawn := drawn_of_committed reachable committed
                  exact absurd draws (not_draws known found txnLive drawn)
                · exact after
            · obtain ⟨rfl, rfl, -⟩ : _ = statement ∧ _ = shown ∧ _ = _ := by simpa using last
              exact unused_of_performed reachable known found txnLive member isNext result
      · exact known.unused j t old live _ _ _ (earlier ran)
  | @committed id txn _ found _ ready =>
      rcases Db.of_getElem?_set found present with ⟨rfl, rfl⟩ | ⟨apart, old⟩
      · simp [Txn.live] at live
      · obtain ⟨⟨first, committed, isUnused⟩, unusable⟩ :=
          known.unused j t old live _ _ _ (earlier ran)
        have held := known.climbs.locking j t old _ _ _ _ ran (locks_consumeRecoveryCode member)
        have free := known.climbs.tracked.exclusive j id t txn (Ne.symm apart) old found live
          (Db.live_of_ready ready) _ held
        have same := Db.view_of_not_held world.db.state free
        have still := Db.view_commit t txn world.db.state
          (AuthKey.recoveryCode code.recoveryCodeId)
        rw [if_pos held] at still
        refine ⟨⟨first, ?_, isUnused⟩, ?_⟩
        · exact lookup_recoveryCode.mp (same.trans (lookup_recoveryCode.mpr committed))
        · exact still ▸ unusable

theorem CodesKnown.effect (reachable : (accountSystem primitives).Reachable world)
    (known : CodesKnown primitives world.db)
    (effect : Db.Effect (authService primitives) world.Admits world.clock world.db db) :
    CodesKnown primitives db where
  climbs := known.climbs.effect effect
  turned := known.turned.effect known.climbs.tracked.exclusive (codeTurns reachable) effect
  apart := known.apart.effect effect
  unused := .effect reachable known effect

/-! ## Codes that are not usable any more -/

/-- **One step** leaves a code retired. -/
theorem Retired.effect (known : CodesKnown primitives world.db) (retired : Retired world.db codeId)
    (effect : Db.Effect (authService primitives) world.Admits world.clock world.db db) :
    Retired db codeId := by
  obtain ⟨⟨id, txn, found, done, draws⟩, unusable⟩ := retired
  refine ⟨⟨id, txn, effect.committed_stays found done, done, draws⟩, ?_⟩
  rcases known.turned.state effect (.recoveryCode codeId) with
    same | ⟨id', txn', -, found', -, live, -, -, turn⟩
  · rw [same]
    exact unusable
  · rcases turn codeId rfl with draws' | after
    · exact absurd draws' (not_draws known found' live ⟨id, txn, found, done, draws⟩)
    · exact after

/-- The code is unused, and the transaction presents a value of its hash. -/
def Presents (primitives : Primitives) (db : AuthDb) (codeId : Uuid) (id : Nat) : Prop :=
  ∃ (txn : AuthTxn) (code : RecoveryCode) (value : Text), db.txns[id]? = some txn ∧
    db.state.recoveryCodes.lookup codeId = some code ∧ code.usedAt = none ∧
      mfaValue? txn.call.request = some value ∧
        primitives.hashRecoveryCode value = some code.codeHash

/-- **The commit** by which a code is consumed. -/
theorem consumes_before (reachable : (accountSystem primitives).Reachable world)
    (known : CodesKnown primitives world.db)
    (effect : Db.Effect (authService primitives) world.Admits world.clock world.db db)
    (consumes : Consumes db codeId id) :
    Consumes world.db codeId id ∨
      (db.history = world.db.history ++ [id] ∧ Presents primitives world.db codeId id ∧
        Retired db codeId) := by
  obtain ⟨t, userId, codeHash, present, done, consumed⟩ := consumes
  rcases effect.committed_before present done with old | ⟨txn, answer, found, live, -, rfl, after,
    grown⟩
  · exact .inl ⟨t, userId, codeHash, old, done, consumed⟩
  · obtain ⟨⟨code, committed, isUnused⟩, unusable⟩ :=
      known.unused id txn found live codeId userId codeHash consumed
    obtain ⟨now, rows, seen, -, ran, -, -⟩ := consumed
    obtain ⟨earlier, later, log⟩ := List.append_of_mem ran
    have due := (((due_inductive primitives).of_reachable reachable) id txn found).here
    obtain ⟨-, value, presented, hashed⟩ := due.logged earlier _ _ seen later log
    obtain ⟨id', txn', found', done', draws⟩ := drawn_of_committed reachable committed
    refine .inr ⟨grown, ⟨txn, code, value, found, committed, isUnused.2.2, presented, ?_⟩,
      ⟨id', txn', effect.committed_stays found' done', done', draws⟩, after ▸ unusable⟩
    rw [hashed, isUnused.2.1]

/-- A code that is retired is not presented. -/
theorem Retired.not_presents (retired : Retired world.db codeId) :
    ¬ Presents primitives world.db codeId id := by
  rintro ⟨txn, code, value, -, found, unused, -⟩
  have unusable := retired.2
  rw [lookup_recoveryCode.mpr found] at unusable
  exact unusable unused

/-- Consumed codes are retired, and were consumed once. -/
structure CodesSpent (db : AuthDb) : Prop where
  retired : ∀ codeId id, Consumes db codeId id → Retired db codeId
  once : ∀ codeId id id', Consumes db codeId id → Consumes db codeId id' → id = id'

theorem CodesSpent.effect (reachable : (accountSystem primitives).Reachable world)
    (known : CodesKnown primitives world.db) (spent : CodesSpent world.db)
    (effect : Db.Effect (authService primitives) world.Admits world.clock world.db db) :
    CodesSpent db where
  retired codeId id consumes := by
    rcases consumes_before reachable known effect consumes with before | ⟨-, -, retired⟩
    · exact (spent.retired codeId id before).effect known effect
    · exact retired
  once codeId id id' consumes consumes' := by
    rcases consumes_before reachable known effect consumes with before | ⟨grown, presents, -⟩
    · rcases consumes_before reachable known effect consumes' with before' | ⟨-, presents', -⟩
      · exact spent.once codeId id id' before before'
      · exact absurd presents' (spent.retired codeId id before).not_presents
    · rcases consumes_before reachable known effect consumes' with before' | ⟨grown', -⟩
      · exact absurd presents (spent.retired codeId id' before').not_presents
      · simpa using grown.symm.trans grown'

end Effect

theorem codesSpent_inductive (primitives : Primitives) :
    (accountSystem primitives).Inductive fun world =>
      (accountSystem primitives).Reachable world ∧
        CodesKnown primitives world.db ∧ CodesSpent world.db := by
  refine (System.Inductive.reachable _).strengthen ?_ ?_
  · rintro world ⟨settings, rfl⟩
    refine ⟨⟨.initial primitives, ?_, ?_, ?_⟩, ?_, ?_⟩
    · exact fun _ _ found => by simp [AccountWorld.start] at found
    · exact fun _ _ _ _ found => by simp [AccountWorld.start] at found
    · exact fun _ _ found => by simp [AccountWorld.start] at found
    · rintro codeId id ⟨txn, _, _, found, -⟩
      simp [AccountWorld.start] at found
    · rintro codeId id id' ⟨txn, _, _, found, -⟩
      simp [AccountWorld.start] at found
  · rintro world action world' reachable ⟨known, spent⟩ step
    cases effect_of_step step with
    | idle same _ => exact same ▸ ⟨known, spent⟩
    | onDb effect => exact ⟨known.effect reachable effect, spent.effect reachable known effect⟩

/-! ## The result -/

/-- **Recovery codes are used once.**  In every reachable world a code has been consumed by one
committed transaction at most.  The step after which it is consumed is the commit of a
transaction that presents it while it is unused, and retires it; and a retired code stays so in
every run. -/
theorem recoveryCode_once (primitives : Primitives) {world : AccountWorld}
    (reachable : (accountSystem primitives).Reachable world) (codeId : Uuid) :
    (∀ id id', Consumes world.db codeId id → Consumes world.db codeId id' → id = id') ∧
      (∀ action world' id, (accountSystem primitives).step world action = some world' →
        Consumes world'.db codeId id → Consumes world.db codeId id ∨
          (action = .commit id ∧ Presents primitives world.db codeId id ∧
            Retired world'.db codeId)) ∧
        (Retired world.db codeId → ∀ world', (accountSystem primitives).Leads world world' →
          Retired world'.db codeId ∧
            ∀ id, Consumes world'.db codeId id → Consumes world.db codeId id) := by
  obtain ⟨-, known, spent⟩ := (codesSpent_inductive primitives).of_reachable reachable
  refine ⟨fun id id' consumes consumes' => spent.once codeId id id' consumes consumes', ?_, ?_⟩
  · intro action world' id step consumes
    cases effect_of_step step with
    | idle same _ => exact .inl (same ▸ consumes)
    | onDb effect =>
        rcases consumes_before reachable known effect consumes with before | ⟨grown, rest⟩
        · exact .inl before
        · exact .inr ⟨commit_of_history step grown, rest⟩
  · intro retired world' run
    have kept : ∀ (s : AccountWorld) (action : AccountAction) (t : AccountWorld),
        (accountSystem primitives).Reachable s ∧ CodesKnown primitives s.db ∧ CodesSpent s.db →
          (Retired s.db codeId ∧ ∀ id, Consumes s.db codeId id → Consumes world.db codeId id) →
            (accountSystem primitives).step s action = some t →
              Retired t.db codeId ∧
                ∀ id, Consumes t.db codeId id → Consumes world.db codeId id := by
      rintro s action t ⟨reached, known, -⟩ ⟨retired, before⟩ step
      cases effect_of_step step with
      | idle same _ => exact same ▸ ⟨retired, before⟩
      | onDb effect =>
          refine ⟨retired.effect known effect, fun id consumes => ?_⟩
          rcases consumes_before reached known effect consumes with old | ⟨-, presents, -⟩
          · exact before id old
          · exact absurd presents retired.not_presents
    exact System.Leads.preserves (codesSpent_inductive primitives) kept ⟨reachable, known, spent⟩
      ⟨retired, fun id consumes => consumes⟩ run

/-- The log has consumed the code. -/
def hasConsumed (codeId : Uuid) (log : List AuthEvent) : Bool :=
  log.any fun
    | .ran (.consumeRecoveryCode _ _ _) rows _ => rows.any fun
        | .recoveryCode code => code.recoveryCodeId = codeId
        | _ => false
    | _ => false

theorem ran_of_hasConsumed {codeId : Uuid} {log : List AuthEvent}
    (consumed : hasConsumed codeId log = true) :
    ∃ userId codeHash, HasConsumed log codeId userId codeHash := by
  obtain ⟨event, member, holds⟩ := List.any_eq_true.mp consumed
  split at holds
  · obtain ⟨row, isRow, same⟩ := List.any_eq_true.mp holds
    split at same
    · exact ⟨_, _, _, _, _, _, member, isRow, of_decide_eq_true same⟩
    · cases same
  · cases holds

/-- The first owner enrolls and gets a recovery code, and signs in with it, up to the commit. -/
def ownerRecovers : List AccountAction :=
  [.begin (.bootstrap 1 "owner" (text "correct horse")) (drawn 1 "a" "000001")] ++
    performs 0 [true, false, false] ++ [.commit 0] ++
    [.begin (.login "owner" (text "correct horse") ⟨"login", "ip", 0⟩) (drawn 2 "b" "111111")] ++
    performs 1 [false, false, false, true, false, false] ++ [.commit 1] ++
    [.begin (.completeMfa "b" (text "111111") none)
      { drawn 3 "c" "000003" with recoveryCodes := [(7, "spare")] }] ++
    performs 2 ([true] ++ List.replicate 10 false ++ [true, false]) ++ [.commit 2] ++
    [.begin (.login "owner" (text "correct horse") ⟨"login", "ip", 0⟩) (drawn 4 "d" "222222")] ++
    performs 3 [false, false, false, true, false] ++ [.commit 3] ++
    [.begin (.completeMfa "d" (text "spare") none) (drawn 5 "e" "000004")] ++
    performs 4 [true, false, false, false, true, false, false, false, true, false]

theorem recoveryCode_once_owner : ∃ world world' : AccountWorld,
    (accountSystem plain).step world (.commit 4) = some world' ∧
      Presents plain world.db 7 4 ∧ Retired world'.db 7 := by
  have ran : ((accountSystem plain).exec (.start {}) ownerRecovers).any (fun world =>
      world.db.txns[4]?.all (fun txn => decide (txn.status = .running)) &&
        ((accountSystem plain).step world (.commit 4)).any fun world' =>
          world'.db.txns[4]?.any fun txn =>
            decide (txn.status = .committed) && hasConsumed 7 txn.log) = true := by
    decide +kernel
  obtain ⟨world, signedIn, facts⟩ := (Option.any_eq_true _ _).mp ran
  obtain ⟨running, facts⟩ := Bool.and_eq_true_iff.mp facts
  obtain ⟨world', step, facts⟩ := (Option.any_eq_true _ _).mp facts
  obtain ⟨txn, found, facts⟩ := (Option.any_eq_true _ _).mp facts
  obtain ⟨done, consumed⟩ := Bool.and_eq_true_iff.mp facts
  obtain ⟨userId, codeHash, hasConsumed⟩ := ran_of_hasConsumed consumed
  have reached : (accountSystem plain).Reachable world :=
    ⟨.start {}, ⟨_, rfl⟩, System.leads_of_exec signedIn⟩
  refine ⟨world, world', step, ?_⟩
  rcases (recoveryCode_once plain reached 7).2.1 _ world' 4 step
      ⟨txn, userId, codeHash, found, of_decide_eq_true done, hasConsumed⟩ with
    ⟨old, -, -, isOld, committed, -⟩ | ⟨-, presents⟩
  · have isRunning := (Option.all_eq_true _ _).mp running old isOld
    cases committed.symm.trans (of_decide_eq_true isRunning)
  · exact presents

end OpsComposer.Accounts
