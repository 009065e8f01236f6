import OpsComposer.Accounts.Windows

/-!
# The confirmed factor is the verified one

`complete_mfa` reads a factor, verifies a code against its secret, and then confirms the
factor by the id of its user.  No lock covers the time between: another login,
activation or start of an enrollment may replace the secret, and then the new secret is
confirmed on a code of the old one.

* `confirmsVerified_of_commit` — in runs in which no replaced secret is committed between
  the verification and the confirmation, a committed enrollment has confirmed the secret
  that its code was verified against;
* `confirmsVerified_fails` — two logins, the second of which commits between the
  verification and the confirmation of an enrollment that was started with the first.
-/

set_option autoImplicit false

namespace OpsComposer.Accounts

open Domain Foundations Repositories Services

/-- The factor that has been verified and is confirmed next. -/
def confirming : Window := fun _ log program =>
  match program.next?, log.getLast? with
  | some (.confirmMfaFactor _ _), some (.ran (.getMfaFactor _) [.factor factor] _) => some factor
  | _, _ => none

theorem confirming_opens : confirming.Opens where
  start call program := by
    unfold confirming
    split
    · rename_i last
      simp at last
    · rfl
  clock call log now next factor opened := by
    unfold confirming at opened
    split at opened
    · rename_i last
      simp at last
    · cases opened
  run call log statement rows seen next factor opened := by
    unfold confirming at opened
    split at opened
    · rename_i last
      obtain ⟨rfl, rfl, -⟩ : statement = _ ∧ rows = _ ∧ seen = _ := by simpa using last
      exact .inl ⟨_, rfl, by rw [Option.some.inj opened]⟩
    · cases opened

/-- Every factor row that the transaction has confirmed holds, after it, the secret that
the presented code was verified against. -/
def ConfirmsVerified (primitives : Primitives) (txn : AuthTxn) (after : AuthStore) : Prop :=
  ∀ userId now rows seen confirmed, .ran (.confirmMfaFactor userId now) rows seen ∈ txn.log →
    .factor confirmed ∈ rows →
      ∃ challengeToken value expectedPurpose factor seen' secret step row,
        txn.call.request = .completeMfa challengeToken value expectedPurpose ∧
        .ran (.getMfaFactor userId) [.factor factor] seen' ∈ txn.log ∧
        secretOf primitives factor = some secret ∧
        matchTotpStep primitives secret value now = .ok (some step) ∧
        after.factors.lookup userId = some row ∧ row.confirmedAt = some now ∧
        secretOf primitives row = some secret

/-! ## What stays of a confirmed factor -/

/-- A confirmed factor keeps its envelope and its time of confirmation, unless its secret
is replaced, it is deleted, or it is confirmed again. -/
theorem confirmed_of_change {store : AuthStore} {statement : AuthStatement} {factor : MfaFactor}
    {after : Option AuthRow} (change : AuthChange store statement (some (.factor factor)) after) :
    (∃ put, statement = .putMfaFactor put) ∨ (∃ userId, statement = .deleteMfaFactor userId) ∨
      (∃ userId now, statement = .confirmMfaFactor userId now) ∨
      ∃ row, after = some (.factor row) ∧ SameEnvelope factor row ∧
        row.confirmedAt = factor.confirmedAt := by
  cases change with
  | replaceMfaFactor _ _ => exact .inl ⟨_, rfl⟩
  | deleteMfaFactor _ _ => exact .inr (.inl ⟨_, rfl⟩)
  | confirmMfaFactor _ _ => exact .inr (.inr (.inl ⟨_, _, rfl⟩))
  | acceptTotpStep _ _ => exact .inr (.inr (.inr ⟨_, rfl, ⟨rfl, rfl⟩, rfl⟩))

/-- The unfinished transactions that have confirmed a factor have verified it, and still
show it. -/
def Confirmed (primitives : Primitives) (db : AuthDb) : Prop :=
  ∀ (id : Nat) (txn : AuthTxn), db.txns[id]? = some txn → txn.live = true →
    ∀ userId now row rows seen, .ran (.confirmMfaFactor userId now) (row :: rows) seen ∈ txn.log →
      ∃ factor seen' step shown, .ran (.getMfaFactor userId) [.factor factor] seen' ∈ txn.log ∧
        factor.userId = userId ∧ Verifies primitives txn.call factor none step now ∧
        (txn.view db.state).factors.lookup userId = some shown ∧ SameEnvelope factor shown ∧
        shown.confirmedAt = some now

section Effect

variable {primitives : Primitives} {world : AccountWorld} {db : AuthDb}

/-- The statement by which a factor is confirmed. -/
theorem confirmed_of_performed (reachable : (accountSystem primitives).Reachable world)
    (current : Current confirming world.db) {id : Nat} {txn : AuthTxn}
    (isTxn : world.db.txns[id]? = some txn) (live : txn.live = true) {userId : Uuid} {now : Nat}
    {row : AuthRow} {rows : List AuthRow} {writes : List (Write AuthKey AuthRow)}
    (next : txn.program.next? = some (.confirmMfaFactor userId now))
    (result : world.db.performed (authService primitives) id txn (.confirmMfaFactor userId now) =
      some (some (row :: rows, writes))) :
    ∃ factor seen step shown, .ran (.getMfaFactor userId) [.factor factor] seen ∈ txn.log ∧
      factor.userId = userId ∧ Verifies primitives txn.call factor none step now ∧
      (RowStore.applyAll world.db.state (txn.writes ++ writes)).factors.lookup userId =
        some shown ∧ SameEnvelope factor shown ∧ shown.confirmedAt = some now := by
  obtain ⟨-, earlier, factor, seen, step, log, owner, verified⟩ := due_of_next reachable isTxn next
  have open' : confirming txn.call txn.log txn.program = some factor := by
    simp [confirming, next, log]
  have written := locks_confirmMfaFactor primitives _ _ _ (Db.of_performed result).2
  rcases Db.performed_row result (AuthKey.factor userId) with ⟨untouched, -⟩ | ⟨-, change⟩
  · exact absurd written untouched
  · obtain ⟨old, before, -, after⟩ := changes_setRows change
    have seenRow := lookup_factor.mp before
    rw [← owner] at seenRow
    exact ⟨factor, seen, step, _, log ▸ List.mem_append_right _ (List.mem_singleton_self _), owner,
      verified, lookup_factor.mp after, current id txn isTxn live factor open' old seenRow, rfl⟩

theorem Confirmed.effect (reachable : (accountSystem primitives).Reachable world)
    (confirmed : Confirmed primitives world.db) (current : Current confirming world.db)
    (effect : Db.Effect (authService primitives) world.Admits world.clock world.db db) :
    Confirmed primitives db := by
  intro j t present live userId now row rows seen ran
  cases effect with
  | begun _ =>
      rcases Db.of_getElem?_append present with ⟨-, rfl⟩ | old
      · cases ran
      · exact confirmed j t old live userId now row rows seen ran
  | @moved id txn txn' isTxn moves =>
      rcases Db.of_getElem?_set isTxn present with ⟨rfl, rfl⟩ | ⟨-, old⟩
      · have txnLive := moves.live
        have before := confirmed id txn isTxn txnLive userId now row rows seen
        cases moves with
        | clock _ _ =>
            rcases List.mem_append.mp ran with earlier | last
            · obtain ⟨factor, seen', step, shown, read, rest⟩ := before earlier
              exact ⟨factor, seen', step, shown, List.mem_append_left _ read, rest⟩
            · simp at last
        | snapshot _ _ _ | checked _ _ _ _ _ => exact before ran
        | aborted _ => simp [Txn.live] at live
        | @performed statement next shown writes _ stands result =>
            have isNext : txn.program.next? = some statement := by rw [stands]; rfl
            rcases List.mem_append.mp ran with earlier | last
            · obtain ⟨factor, seen', step, old, read, owner, verified, visible, envelope, time⟩ :=
                before earlier
              have read' := List.mem_append_left
                [.ran statement shown (world.db.snapshotFor txn).seen] read
              have completion := permitted_of_ran reachable isTxn earlier
              have permitted := permitted_of_next reachable isTxn isNext
              rcases Db.performed_row result (AuthKey.factor userId) with ⟨-, same⟩ | ⟨-, change⟩
              · exact ⟨factor, seen', step, old, read', owner, verified,
                  (lookup_factor_congr same).trans visible, envelope, time⟩
              · rw [lookup_factor.mpr visible] at change
                rcases confirmed_of_change (authChange_of_changes change) with ⟨put, rfl⟩ |
                  ⟨_, rfl⟩ | ⟨_, _, rfl⟩ | ⟨new, after, envelope', time'⟩
                · exact absurd permitted.2.2.2.2 (mfaValue_of_completion completion)
                · exact absurd permitted (mfaValue_of_completion completion)
                · have first := (due_of_next reachable isTxn isNext).1
                  have twice : executed isConfirm txn.log = true :=
                    executed_iff.mpr ⟨_, _, _, earlier, rfl⟩
                  exact absurd (first.symm.trans twice) (by simp)
                · exact ⟨factor, seen', step, new, read', owner, verified,
                    lookup_factor.mp after, envelope.trans envelope', time'.trans time⟩
            · obtain ⟨rfl, rfl, -⟩ : _ = statement ∧ _ = shown ∧ _ = _ := by simpa using last
              obtain ⟨factor, seen', step, new, read, rest⟩ :=
                confirmed_of_performed reachable current isTxn txnLive isNext result
              exact ⟨factor, seen', step, new, List.mem_append_left _ read, rest⟩
      · exact confirmed j t old live userId now row rows seen ran
  | @committed id txn _ isTxn _ ready =>
      rcases Db.of_getElem?_set isTxn present with ⟨rfl, rfl⟩ | ⟨apart, old⟩
      · simp [Txn.live] at live
      · obtain ⟨factor, seen', step, shown, read, owner, verified, visible, rest⟩ :=
          confirmed j t old live userId now row rows seen ran
        have locking := ((factorsTracked_inductive primitives).of_reachable reachable).1
        have held := locking j t old _ _ _ _ ran (locks_confirmMfaFactor primitives)
        have same := Db.view_commit t txn world.db.state (AuthKey.factor userId)
        rw [if_pos held] at same
        exact ⟨factor, seen', step, shown, read, owner, verified,
          (lookup_factor_congr same).trans visible, rest⟩

end Effect

/-! ## The result -/

/-- Verifications stay current and confirmations verified in undisturbed runs. -/
theorem confirmed_of_undisturbed {primitives : Primitives} {world : AccountWorld}
    (reachable : ((accountSystem primitives).restrict (Undisturbed confirming)).Reachable world) :
    Current confirming world.db ∧ Confirmed primitives world.db := by
  refine of_restricted_commits
    (fun db => Current confirming db ∧ Confirmed primitives db) ?_ ?_ reachable
  · exact ⟨fun _ _ found => by simp at found, fun _ _ found => by simp at found⟩
  rintro before db reached ⟨current, confirmed⟩ effect undisturbed
  have waiting := (waiting_inductive primitives).of_reachable reached
  have tracked := ((factorsTracked_inductive primitives).of_reachable reached).2
  exact ⟨current.effect confirming_opens waiting tracked undisturbed effect,
    confirmed.effect reached current effect⟩

/-- **The confirmed factor is the verified one**, when no replaced secret of the user is
committed between the verification and the confirmation. -/
theorem confirmsVerified_of_commit (primitives : Primitives) {world world' : AccountWorld}
    {id : Nat} {txn : AuthTxn}
    (reachable : ((accountSystem primitives).restrict (Undisturbed confirming)).Reachable world)
    (found : world.db.txns[id]? = some txn)
    (step : world.step primitives (.commit id) = some world') :
    ConfirmsVerified primitives txn world'.db.state := by
  intro userId now rows seen confirmed ran isConfirmed
  obtain ⟨row, rest, rfl⟩ := List.exists_cons_of_ne_nil (List.ne_nil_of_mem isConfirmed)
  have unrestricted := reachable.of_restrict
  obtain ⟨live, after⟩ := state_of_commit found step
  obtain ⟨factor, seen', matched, shown, read, owner, ⟨value, secret, presented, opened, isStep⟩,
    visible, envelope, time⟩ :=
      (confirmed_of_undisturbed reachable).2 id txn found live userId now row rest seen ran
  obtain ⟨challengeToken, value', expectedPurpose, request⟩ :=
    permitted_of_ran unrestricted found ran
  obtain rfl : value' = value := by
    rw [request] at presented
    exact Option.some.inj presented
  have sameUser : factor.userId = shown.userId := owner.trans (Table.key_of_lookup visible).symm
  exact ⟨challengeToken, value', expectedPurpose, factor, seen', secret, matched, shown, request,
    read, opened, isStep, after ▸ visible, time, (envelope.secretOf sameUser).symm.trans opened⟩

/-- The log has confirmed the factor of the user at a time. -/
def hasConfirmed (userId : Uuid) (now : Nat) (log : List AuthEvent) : Bool :=
  log.any fun
    | .ran (.confirmMfaFactor userId' now') (.factor _ :: _) _ => userId' = userId ∧ now' = now
    | _ => false

theorem ran_of_hasConfirmed {userId : Uuid} {now : Nat} {log : List AuthEvent}
    (confirmed : hasConfirmed userId now log = true) :
    ∃ factor rows seen,
      .ran (.confirmMfaFactor userId now) (.factor factor :: rows) seen ∈ log := by
  obtain ⟨event, member, holds⟩ := List.any_eq_true.mp confirmed
  split at holds
  · obtain ⟨rfl, rfl⟩ := of_decide_eq_true holds
    exact ⟨_, _, _, member⟩
  · cases holds

/-- The enrollment of the first owner, up to the commit of its completion. -/
def ownerConfirms : List AccountAction :=
  [.begin (.bootstrap 1 "owner" (text "correct horse")) (drawn 1 "a" "000001")] ++
    performs 0 [true, false, false] ++ [.commit 0] ++
    [.begin (.login "owner" (text "correct horse") ⟨"login", "ip", 0⟩) (drawn 2 "b" "111111")] ++
    performs 1 [false, false, false, true, false, false] ++ [.commit 1] ++
    [.begin (.completeMfa "b" (text "111111") none) (drawn 3 "c" "000003")] ++
    performs 2 ([true] ++ List.replicate 9 false ++ [true, false])

theorem confirmsVerified_of_commit_owner : ∃ (world world' : AccountWorld) (txn : AuthTxn),
    world.db.txns[2]? = some txn ∧ world.step plain (.commit 2) = some world' ∧
      hasConfirmed 1 0 txn.log = true ∧ ConfirmsVerified plain txn world'.db.state := by
  have ran : ((accountSystem plain).exec (.start {}) ownerConfirms).bind (fun world =>
      world.db.txns[2]?.bind fun txn => (world.step plain (.commit 2)).map fun _ =>
        hasConfirmed 1 0 txn.log) = some true := by
    decide +kernel
  obtain ⟨world, enrolled, rest⟩ := Option.bind_eq_some_iff.mp ran
  obtain ⟨txn, found, rest⟩ := Option.bind_eq_some_iff.mp rest
  obtain ⟨world', step, confirmed⟩ := Option.map_eq_some_iff.mp rest
  have undisturbed : (accountSystem plain).Along (Undisturbed confirming) (.start {})
      ownerConfirms := by
    decide +kernel
  exact ⟨world, world', txn, found, step, confirmed, confirmsVerified_of_commit plain
    ⟨.start {}, ⟨_, rfl⟩, System.leads_restrict_of_exec enrolled undisturbed⟩ found step⟩

/-- Two enrollments of the first owner: the second login replaces the secret after the
first login's code has been verified. -/
def secretReplaced : List AccountAction :=
  [.begin (.bootstrap 1 "owner" (text "correct horse")) (drawn 1 "a" "000001")] ++
    performs 0 [true, false, false] ++ [.commit 0] ++
    [.begin (.login "owner" (text "correct horse") ⟨"login", "ip", 0⟩) (drawn 2 "b" "111111")] ++
    performs 1 [false, false, false, true, false, false] ++ [.commit 1] ++
    [.begin (.completeMfa "b" (text "111111") none) (drawn 3 "c" "000003")] ++
    performs 2 [true, false, false, false] ++
    [.begin (.login "owner" (text "correct horse") ⟨"login", "ip", 0⟩) (drawn 4 "d" "222222")] ++
    performs 3 [false, false, false, true, false, false] ++ [.commit 3] ++
    performs 2 (List.replicate 6 false ++ [true, false])

/-- **The confirmed factor need not be the verified one.** -/
theorem confirmsVerified_fails : ∃ (world world' : AccountWorld) (txn : AuthTxn),
    (accountSystem plain).Reachable world ∧ world.db.txns[2]? = some txn ∧
      world.step plain (.commit 2) = some world' ∧
      ¬ ConfirmsVerified plain txn world'.db.state := by
  have ran : ((accountSystem plain).exec (.start {}) secretReplaced).bind (fun world =>
      world.db.txns[2]?.bind fun txn => (world.step plain (.commit 2)).map fun world' =>
        (mfaValue? txn.call.request, hasConfirmed 1 0 txn.log,
          (world'.db.state.factors.lookup 1).bind (secretOf plain))) =
      some (some (text "111111"), true, some "222222") := by
    decide +kernel
  obtain ⟨world, replaced, rest⟩ := Option.bind_eq_some_iff.mp ran
  obtain ⟨txn, found, rest⟩ := Option.bind_eq_some_iff.mp rest
  obtain ⟨world', step, facts⟩ := Option.map_eq_some_iff.mp rest
  obtain ⟨presented, confirmed, stored⟩ := (by simpa using facts :
    mfaValue? txn.call.request = some (text "111111") ∧ hasConfirmed 1 0 txn.log = true ∧
      (world'.db.state.factors.lookup 1).bind (secretOf plain) = some "222222")
  refine ⟨world, world', txn, ⟨.start {}, ⟨_, rfl⟩, System.leads_of_exec replaced⟩, found, step,
    fun verified => ?_⟩
  obtain ⟨factor, rows, seen, logged⟩ := ran_of_hasConfirmed confirmed
  obtain ⟨challengeToken, value, expectedPurpose, _, _, secret, matched, row, request, -, -,
    isStep, visible, -, opened⟩ := verified 1 0 _ _ factor logged (List.mem_cons_self ..)
  obtain rfl : value = text "111111" := by
    rw [request] at presented
    exact Option.some.inj presented
  obtain rfl : secret = "222222" := by
    rw [visible, Option.bind_some, opened] at stored
    exact Option.some.inj stored
  have unmatched : matchTotpStep plain "222222" (text "111111") 0 = .ok none := by decide
  exact absurd (unmatched.symm.trans isStep) (by simp)

end OpsComposer.Accounts
