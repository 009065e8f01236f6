import OpsComposer.Foundations.CommitHistory
import OpsComposer.Services.RateLimits

/-!
# What the transactions of logins commit

An attempt leaves its counter one higher than it has found it when it commits, and returns
that count: from the statement to the commit the transaction holds the row.  The unit of work
of a login touches the counter of its bucket only, and a purge takes only counters whose
window is over (`Turns`).
-/

set_option autoImplicit false

namespace OpsComposer.RateLimits

open Domain Foundations Services RowStore
open Services.AuthService (RateLimitSpec fixedWindow)
open Program (Ends ends_done ends_run ends_clock ends_orFail)

/-! ## Statements and logs -/

section Logs

variable {primitives : Primitives} {settings : AuthSettings}

/-- **The returned rows of a statement tell its writes.** -/
theorem tellable : (rateService primitives settings).Tellable RateStatement.effects := by
  intro statement snapshot current shown writes done
  cases statement with
  | consumeRateLimit key expiresAt =>
      rcases Command.perform_upsert done with ⟨-, rfl, rfl⟩ | ⟨old, -, rfl, rfl⟩
      · rfl
      · rfl
  | clearRateLimit key | purgeExpired now => exact (Command.perform_delete done).2

/-- The log of a call that has come to its end, with its answer. -/
inductive Outcome (primitives : Primitives) (settings : AuthSettings) :
    RateCall → Option ConsumedRateLimit → List RateEvent → Prop where
  | consumed {spec : RateLimitSpec} {now seen : Nat} {row : RateLimit} {rows : List RateLimit}
      (first : rows.head? = some row) :
      Outcome primitives settings (.consumeRateLimit spec)
        (some
          { key := bucketOf primitives settings spec now
            resetAt := (fixedWindow now spec.windowSeconds).2
            count := row.attemptCount
            maximum := spec.maximum })
        [.clock now,
          .ran (.consumeRateLimit (bucketOf primitives settings spec now)
            (fixedWindow now spec.windowSeconds).2) rows seen]
  | cleared {bucket : RateLimitKey} {seen : Nat} {rows : List RateLimit} :
      Outcome primitives settings (.clearRateLimit bucket) none
        [.ran (.clearRateLimit bucket) rows seen]
  | purged {now seen : Nat} {rows : List RateLimit} :
      Outcome primitives settings .purgeExpired none
        [.clock now, .ran (.purgeExpired now) rows seen]

/-- **Every call** that comes to its end has one of these logs. -/
theorem ends_program {told : RateStatement → List RateLimit → Prop} (call : RateCall) :
    Ends told (Outcome primitives settings call) []
      ((rateService primitives settings).program call) := by
  cases call with
  | consumeRateLimit spec =>
      refine ends_clock fun now => ends_run fun rows seen _ => ends_orFail fun row first => ?_
      exact ends_done (.consumed first)
  | clearRateLimit bucket => exact ends_run fun rows seen _ => ends_done .cleared
  | purgeExpired => exact ends_clock fun now => ends_run fun rows seen _ => ends_done .purged

end Logs

/-! ## Commits -/

/-- The attempts that a bucket counts. -/
def countOf (store : RateStore) (key : RateLimitKey) : Nat :=
  ((store.lookup key).map RateLimit.attemptCount).getD 0

/-- What a commit leaves under every key. -/
inductive Turns (primitives : Primitives) (settings : AuthSettings) (log : List RateEvent)
    (store store' : RateStore) : RateCall → Option ConsumedRateLimit → Prop where
  | counted {spec : RateLimitSpec} {now : Nat} {consumed : ConsumedRateLimit}
      (isRead : .clock now ∈ log) (key : consumed.key = bucketOf primitives settings spec now)
      (resetAt : consumed.resetAt = (fixedWindow now spec.windowSeconds).2)
      (maximum : consumed.maximum = spec.maximum)
      (count : consumed.count = countOf store consumed.key + 1)
      (after : ∀ k, lookup store' k =
        if consumed.key = k then some ⟨consumed.key, consumed.count, consumed.resetAt⟩
        else lookup store k) :
      Turns primitives settings log store store' (.consumeRateLimit spec) (some consumed)
  | cleared {bucket : RateLimitKey} (frame : ∀ k, k ≠ bucket → lookup store' k = lookup store k)
      (gone : ∀ k, lookup store' k = lookup store k ∨ lookup store' k = none) :
      Turns primitives settings log store store' (.clearRateLimit bucket) none
  | purged {now : Nat} (isRead : .clock now ∈ log)
      (frame : ∀ k, lookup store' k = lookup store k ∨
        lookup store' k = none ∧ ∃ limit, lookup store k = some limit ∧ limit.expiresAt ≤ now) :
      Turns primitives settings log store store' .purgeExpired none

section Commit

variable {primitives : Primitives} {settings : AuthSettings} {db : RateDb} {start : RateStore}
  {i seen n : Nat} {shown : List RateLimit}

/-- A statement that has run in a transaction of its own, up to the state after `i` commits. -/
structure RanAlone (primitives : Primitives) (settings : AuthSettings) (start : RateStore)
    (db : RateDb) (i : Nat) (statement : RateStatement) (shown : List RateLimit) : Prop where
  ran : ∃ seen n, Db.RanAt (rateService primitives settings) RateStatement.effects start db seen n []
    statement shown ∧ ∀ k ∈ touched RateStore (statement.effects shown),
      lookup (db.stateAt start n) k = lookup (db.stateAt start i) k

/-- **A deletion** takes only rows that meet its condition. -/
theorem RanAlone.delete {statement : RateStatement} {condition : RateLimit → Bool}
    (alone : RanAlone primitives settings start db i statement shown)
    (meaning : ∀ store, statement.meaning store = .delete condition) (k : RateLimitKey) :
    lookup (applyAll (db.stateAt start i) (statement.effects shown)) k =
        lookup (db.stateAt start i) k ∨
      lookup (applyAll (db.stateAt start i) (statement.effects shown)) k = none ∧
        ∃ limit, lookup (db.stateAt start i) k = some limit ∧ condition limit = true := by
  obtain ⟨seen, n, ran, kept⟩ := alone.ran
  rcases ran.changes kept k with same | change
  · exact .inl same
  · simp only [rateService, meaning, applyAll_nil, List.nil_append] at change
    generalize before : lookup (db.stateAt start i) k = old? at change
    generalize lookup (applyAll (db.stateAt start i) (statement.effects shown)) k = new? at change
    cases change with
    | delete holds => exact .inr ⟨rfl, _, rfl, holds⟩

/-- **An attempt** counts one more than its bucket has when it commits. -/
theorem RanAlone.count {key : RateLimitKey} {expiresAt : Nat} {row : RateLimit}
    (alone : RanAlone primitives settings start db i (.consumeRateLimit key expiresAt) shown)
    (first : shown.head? = some row) :
    row.attemptCount = countOf (db.stateAt start i) key + 1 ∧
      ∀ k, lookup (applyAll (db.stateAt start i)
          (RateStatement.effects (.consumeRateLimit key expiresAt) shown)) k =
        if key = k then some ⟨key, row.attemptCount, expiresAt⟩
        else lookup (db.stateAt start i) k := by
  obtain ⟨seen, n, ran, kept⟩ := alone.ran
  -- the row that is put, by what the statement has found
  obtain ⟨rfl, counts, isRow⟩ : shown = [row] ∧
      row.attemptCount = countOf (db.stateAt start n) key + 1 ∧
        row = ⟨key, row.attemptCount, expiresAt⟩ := by
    rcases Command.perform_upsert ran.performed with ⟨free, rfl, -⟩ | ⟨old, found, rfl, -⟩
    · obtain rfl := Option.some.inj first
      refine ⟨rfl, ?_, rfl⟩
      have free : (db.stateAt start n).lookup key = none := free
      simp [countOf, free]
    · obtain rfl := Option.some.inj first
      have found : (db.stateAt start n).lookup key = some old := found
      refine ⟨rfl, by simp [countOf, found], ?_⟩
      rw [← Table.key_of_lookup found]
  have named : RowStore.key RateStore row = key := congrArg RateLimit.key isRow
  have same : lookup (db.stateAt start n) key = lookup (db.stateAt start i) key :=
    kept key (by simp [RateStatement.effects, touched, written, named])
  refine ⟨?_, fun k => ?_⟩
  · have same : (db.stateAt start n).lookup key = (db.stateAt start i).lookup key := same
    rw [counts, countOf, countOf, same]
  · rw [RateStatement.effects, List.map_singleton, applyAll_cons, applyAll_nil, lookup_apply]
    simp only [written, left, named, ← isRow]

/-- **One commit.** -/
theorem turns_of_committed {admitted : RateCall → List RateEvent → RateStore → Prop} {id : Nat}
    {txn : RateTxn} {answer : Option ConsumedRateLimit}
    (committed : (rateService primitives settings).Committed RateStatement.effects
      (Outcome primitives settings) admitted start db i id txn answer) :
    Turns primitives settings txn.log (db.stateAt start i) (db.stateAt start (i + 1)) txn.call
      answer := by
  have plays := committed.plays
  have outcome := committed.outcome
  rw [committed.after]
  generalize isLog : txn.log = log at plays outcome
  generalize txn.call = call at outcome
  cases outcome with
  | @consumed spec now seen row rows first =>
      obtain ⟨⟨n, -, ran, kept⟩, -⟩ := plays
      obtain ⟨counts, after⟩ := RanAlone.count ⟨_, n, ran, kept⟩ first
      refine .counted List.mem_cons_self rfl rfl rfl counts fun k => ?_
      rw [logged_clock, logged_ran, logged_nil, List.append_nil]
      exact after k
  | @cleared bucket seen rows =>
      obtain ⟨⟨n, -, ran, kept⟩, -⟩ := plays
      have each := RanAlone.delete ⟨_, n, ran, kept⟩ fun _ => rfl
      rw [logged_ran, logged_nil, List.append_nil]
      refine .cleared (fun k apart => ?_) fun k => (each k).imp_right And.left
      refine (each k).resolve_right ?_
      rintro ⟨-, limit, found, holds⟩
      exact apart ((key_of_lookup found).symm.trans (of_decide_eq_true holds))
  | @purged now seen rows =>
      obtain ⟨⟨n, -, ran, kept⟩, -⟩ := plays
      have each := RanAlone.delete ⟨_, n, ran, kept⟩ fun _ => rfl
      rw [logged_clock, logged_ran, logged_nil, List.append_nil]
      refine .purged List.mem_cons_self fun k => (each k).imp_right fun gone => ?_
      obtain ⟨free, limit, found, holds⟩ := gone
      exact ⟨free, limit, found, of_decide_eq_true holds⟩

end Commit

end OpsComposer.RateLimits
