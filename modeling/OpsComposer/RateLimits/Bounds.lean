import OpsComposer.Accounts.System
import OpsComposer.RateLimits.Logins

/-!
# The bounds of the limiters

The attempts of one bucket return the counts one, two, three, …, each once, as long as no
login that the bucket has counted passes the verification within its window: its counter is
dropped by nothing else before the window is over (`Kept`, an invariant of every run).  So the
limiter lets at most its maximum of them pass.

A counter of client addresses is dropped by no login at all.
-/

set_option autoImplicit false

namespace OpsComposer.RateLimits

open Domain Foundations Services RowStore
open Services.AuthService (RateLimitSpec fixedWindow)

/-! ## Counts -/

/-- The end of the window of a bucket. -/
def windowEnd (settings : AuthSettings) (key : RateLimitKey) : Nat :=
  key.windowStartedAt + seconds
    (if key.scope = "login:ip" then settings.authLoginIpWindowSeconds
    else settings.authLoginUsernameIpWindowSeconds)

/-- The count that a committed attempt of a bucket has returned. -/
def countAt? (db : RateDb) (key : RateLimitKey) (id : Nat) : Option Nat :=
  ((counted? db id).filter fun consumed => decide (consumed.key = key)).map ConsumedRateLimit.count

/-- The counts of a bucket, in the order of the commits. -/
def counts (db : RateDb) (key : RateLimitKey) : List Nat := db.history.filterMap (countAt? db key)

/-- No login that the bucket has counted passes before its window is over. -/
def Undisturbed (settings : AuthSettings) (state : LoginWorld) (key : RateLimitKey) : Prop :=
  ∀ login ∈ state.logins, ∀ time, login.Passed state.world.db key time → windowEnd settings key ≤ time

/-- The counter of a bucket: its attempts have been counted one after the other, and the row
says how many there are, unless the window is over. -/
structure Kept (settings : AuthSettings) (state : LoginWorld) : Prop where
  expires : ∀ (key : RateLimitKey) (limit : RateLimit),
    lookup state.world.db.state key = some limit → limit.expiresAt = windowEnd settings key
  counting : ∀ key, Undisturbed settings state key →
    counts state.world.db key = List.range' 1 (counts state.world.db key).length ∧
      (countOf state.world.db.state key = (counts state.world.db key).length ∨
        windowEnd settings key ≤ state.world.clock)

section Kept

variable {primitives : Primitives} {settings : AuthSettings} {state next : LoginWorld}
  {world world' : RateWorld}

theorem windowEnd_address (client : ClientKey) (now : Nat) :
    windowEnd settings (bucketOf primitives settings (addressSpec settings client) now) =
      (fixedWindow now settings.authLoginIpWindowSeconds).2 := by
  simp [windowEnd, bucketOf, addressSpec, fixedWindow, seconds, Nat.add_mul]

theorem windowEnd_pair (username : String) (client : ClientKey) (now : Nat) :
    windowEnd settings (bucketOf primitives settings (pairSpec primitives settings username client) now) =
      (fixedWindow now settings.authLoginUsernameIpWindowSeconds).2 := by
  simp [windowEnd, bucketOf, pairSpec, fixedWindow, seconds, Nat.add_mul]

/-- The history grows, and what it has counted stays. -/
theorem counts_append {admits : RateCall → Prop} {time : Nat} {db db' : RateDb}
    (recorded : Db.Recorded db)
    (effect : Db.Effect (rateService primitives settings) admits time db db') {added : List Nat}
    (grown : db'.history = db.history ++ added) (key : RateLimitKey) :
    counts db' key = counts db key ++ added.filterMap (countAt? db' key) := by
  rw [counts, grown, List.filterMap_append]
  refine congrArg (· ++ _) (List.filterMap_congr fun id member => ?_)
  obtain ⟨txn, found, done⟩ := (recorded.iff id).mp member
  rw [countAt?, countAt?, counted?, counted?, found, effect.committed_stays found done]

/-- Nothing has been committed. -/
structure Quiet (world world' : RateWorld) : Prop where
  clock : world.clock ≤ world'.clock
  state : world'.db.state = world.db.state
  counts : ∀ key, counts world'.db key = counts world.db key

theorem Undisturbed.before {key : RateLimitKey} (undisturbed : Undisturbed settings next key)
    (later : Later state.world next.world)
    (stay : ∀ login ∈ state.logins, login.verified.isSome → login ∈ next.logins) :
    Undisturbed settings state key := by
  intro login member time passed
  have isVerified : login.verified.isSome := by simp [passed.1]
  exact undisturbed login (stay login member isVerified) time (passed.later later)

theorem Kept.quiet (kept : Kept settings state) (quiet : Quiet state.world next.world)
    (later : Later state.world next.world)
    (stay : ∀ login ∈ state.logins, login.verified.isSome → login ∈ next.logins) :
    Kept settings next where
  expires := quiet.state ▸ kept.expires
  counting key undisturbed := by
    obtain ⟨inOrder, isCount⟩ := kept.counting key (undisturbed.before later stay)
    rw [quiet.state, quiet.counts]
    exact ⟨inOrder, isCount.imp_right quiet.clock.trans'⟩

theorem Begins.quiet {call : RateCall} (begins : Begins primitives settings world call world')
    (recorded : Db.Recorded world.db) : Quiet world world' := by
  obtain rfl := Option.some.inj begins
  refine ⟨le_rfl, rfl, fun key => ?_⟩
  have effect : Db.Effect (rateService primitives settings) (fun _ => True) 0 world.db
      { world.db with txns := world.db.txns ++ [Txn.start (rateService primitives settings) call] } :=
    .begun trivial
  exact (counts_append recorded effect (List.append_nil _).symm key).trans (List.append_nil _)

/-- What the last commit has turned. -/
theorem turns_of_step (accounted : Accounted primitives settings world) {act : DbAct RateCall}
    (step : world.step (rateService primitives settings) act = some world') {id : Nat}
    (grown : world'.db.history = world.db.history ++ [id]) :
    ∃ (txn : RateTxn) (answer : Option ConsumedRateLimit), world'.db.txns[id]? = some txn ∧
      txn.status = .committed ∧ txn.program = .done answer ∧
      Turns primitives settings txn.log world.db.state world'.db.state txn.call answer := by
  have account := (accounted.step step).account
  have bound : world.db.history.length < world'.db.history.length := by simp [grown]
  obtain ⟨id', txn, answer, committed⟩ := account.commit bound
  have isLast : world'.db.history[world.db.history.length]? = some id := by simp [grown]
  obtain rfl : id' = id := Option.some.inj (committed.next.symm.trans isLast)
  have turns := turns_of_committed committed
  have run : ((rateService primitives settings).system fun store => store = Table.empty).Leads
      world world' := (System.Leads.refl world).tail step
  have past : world.db.state = world'.db.stateAt Table.empty world.db.history.length := by
    obtain ⟨-, past⟩ := Service.past_of_leads Table.empty accounted.account.chronicle.recorded run
    exact accounted.account.chronicle.present.trans (past _ le_rfl).symm
  have present : world'.db.state = world'.db.stateAt Table.empty (world.db.history.length + 1) := by
    rw [account.chronicle.present, grown, List.length_append, List.length_singleton]
  rw [← past, ← present] at turns
  exact ⟨txn, answer, committed.found, committed.done, committed.stands, turns⟩

/-- **One commit.** -/
theorem Kept.commit (kept : Kept settings state) (quiet : state.world.clock = next.world.clock)
    {txn : RateTxn} {id : Nat} {answer : Option ConsumedRateLimit}
    (found : next.world.db.txns[id]? = some txn) (done : txn.status = .committed)
    (stands : txn.program = .done answer)
    (counted : ∀ key, counts next.world.db key =
      counts state.world.db key ++ [id].filterMap (countAt? next.world.db key))
    (turns : Turns primitives settings txn.log state.world.db.state next.world.db.state txn.call
      answer)
    (undisturbs : ∀ key, Undisturbed settings next key → Undisturbed settings state key)
    (known : Known primitives settings next txn.call)
    (readBy : ∀ now, .clock now ∈ txn.log → now ≤ next.world.clock)
    (inWindow : ∀ consumed ∈ answer, next.world.clock < consumed.resetAt) :
    Kept settings next := by
  have isCounted : counted? next.world.db id = answer := by
    rw [counted?, found, Option.bind_some, if_pos done, RateTxn.consumed?, stands]
  generalize txn.call = call at turns known
  generalize txn.log = log at turns readBy
  cases turns with
  | @counted spec now consumed isRead key resetAt maximum count after =>
      have isEnd : consumed.resetAt = windowEnd settings consumed.key := by
        rw [key, resetAt]
        cases known with
        | address client => exact (windowEnd_address client now).symm
        | pair username client => exact (windowEnd_pair username client now).symm
      have open_ := inWindow consumed rfl
      refine ⟨fun k limit isThere => ?_, fun k undisturbed => ?_⟩
      · rw [after k] at isThere
        by_cases same : consumed.key = k
        · rw [if_pos same] at isThere
          obtain rfl := Option.some.inj isThere
          exact same ▸ isEnd
        · rw [if_neg same] at isThere
          exact kept.expires k limit isThere
      · obtain ⟨inOrder, isCount⟩ := kept.counting k (undisturbs k undisturbed)
        have row : Table.lookup next.world.db.state k = if consumed.key = k then
            some ⟨consumed.key, consumed.count, consumed.resetAt⟩
          else Table.lookup state.world.db.state k := after k
        by_cases same : consumed.key = k
        · subst same
          have isLast : [id].filterMap (countAt? next.world.db consumed.key) = [consumed.count] := by
            simp [countAt?, isCounted]
          have low : countOf state.world.db.state consumed.key =
              (counts state.world.db consumed.key).length := by
            refine isCount.resolve_right ?_
            rw [← isEnd, quiet]
            omega
          rw [counted, isLast, List.length_append, List.length_singleton, countOf, row]
          refine ⟨?_, .inl (by simp [count, low])⟩
          rw [List.range'_concat, ← inOrder, count, low, Nat.one_mul, Nat.add_comm]
        · have isOther : [id].filterMap (countAt? next.world.db k) = [] := by
            simp [countAt?, isCounted, same]
          rw [counted, isOther, List.append_nil, countOf, row, if_neg same, ← quiet]
          exact ⟨inOrder, isCount⟩
  | @cleared bucket frame gone =>
      have isNone : ∀ key, [id].filterMap (countAt? next.world.db key) = [] := by
        simp [countAt?, isCounted]
      refine ⟨fun k limit isThere => ?_, fun k undisturbed => ?_⟩
      · rcases gone k with same | isGone
        · exact kept.expires k limit (same.symm.trans isThere)
        · cases isGone.symm.trans isThere
      · obtain ⟨inOrder, isCount⟩ := kept.counting k (undisturbs k undisturbed)
        rw [counted, isNone, List.append_nil]
        refine ⟨inOrder, ?_⟩
        by_cases same : k = bucket
        · subst same
          cases known with
          | passed member passed past => exact .inr ((undisturbed _ member _ passed).trans past)
        · have row : Table.lookup next.world.db.state k = Table.lookup state.world.db.state k :=
            frame k same
          rw [countOf, row, ← quiet]
          exact isCount
  | @purged now isRead frame =>
      have isNone : ∀ key, [id].filterMap (countAt? next.world.db key) = [] := by
        simp [countAt?, isCounted]
      refine ⟨fun k limit isThere => ?_, fun k undisturbed => ?_⟩
      · rcases frame k with same | ⟨isGone, -⟩
        · exact kept.expires k limit (same.symm.trans isThere)
        · cases isGone.symm.trans isThere
      · obtain ⟨inOrder, isCount⟩ := kept.counting k (undisturbs k undisturbed)
        rw [counted, isNone, List.append_nil]
        refine ⟨inOrder, ?_⟩
        rcases frame k with same | ⟨-, limit, isThere, expired⟩
        · have row : Table.lookup next.world.db.state k = Table.lookup state.world.db.state k := same
          rw [countOf, row, ← quiet]
          exact isCount
        · exact .inr ((kept.expires k limit isThere) ▸ expired.trans (readBy now isRead))

/-- What a step leaves of the logins that have verified their passwords. -/
theorem LoginEffect.stay {act : LoginAct} (tied : Tied primitives settings state)
    (effect : LoginEffect primitives settings state act next) :
    ∀ login ∈ state.logins, login.verified.isSome → login ∈ next.logins := by
  cases effect with
  | started _ => exact fun login member _ => List.mem_append_left _ member
  | proceeded split waits _ =>
      have member : _ ∈ state.logins := split ▸ List.mem_append_right _ List.mem_cons_self
      exact stay_of_split _ split ((tied.each _ member).verified_eq_none waits)
  | verified split waits _ _ _ => exact stay_of_split _ split waits
  | purging _ | idle | onDb _ _ => exact fun _ member _ => member

/-- **One step** of a run whose attempts commit within their windows. -/
theorem Kept.effect (kept : Kept settings state)
    (accounted : Accounted primitives settings state.world) (tied : Tied primitives settings state)
    {act : LoginAct} (inWindow : CommitsInWindow state act)
    (effect : LoginEffect primitives settings state act next)
    (accounted' : Accounted primitives settings next.world)
    (tied' : Tied primitives settings next) :
    Kept settings next := by
  have later := effect.later
  have stay := effect.stay tied
  have recorded := accounted.account.chronicle.recorded
  cases effect with
  | started begins | proceeded _ _ begins | purging begins =>
      exact kept.quiet (begins.quiet recorded) later stay
  | @verified i id valid _ _ _ _ world _ _ _ _ begins =>
      cases valid with
      | false =>
          obtain rfl : world = state.world := begins
          exact kept.quiet ⟨le_rfl, rfl, fun _ => rfl⟩ later stay
      | true =>
          have begins : Begins primitives settings state.world _ world := begins
          exact kept.quiet (begins.quiet recorded) later stay
  | idle => exact kept.quiet ⟨Nat.le_add_right _ _, rfl, fun _ => rfl⟩ later stay
  | @onDb action world silent step =>
      cases WorldEffect.of_step step with
      | @onDb _ db change commits =>
          have unchanged : db.state = state.world.db.state →
              db.history = state.world.db.history ++ [] → Kept settings
                { state with world := { state.world with db := db } } := by
            intro same grown
            refine kept.quiet ⟨le_rfl, same, fun key => ?_⟩ later stay
            exact (counts_append recorded change grown key).trans (List.append_nil _)
          have same := change
          cases change with
          | begun _ | moved _ _ => exact unchanged rfl (List.append_nil _).symm
          | @committed id old answer isOld stands ready =>
              obtain ⟨txn, answer', found, done, stands', turns⟩ := turns_of_step accounted step rfl
              obtain rfl := commits id rfl
              have isTxn : txn.program = old.program := by
                rcases Db.of_getElem?_set isOld found with ⟨-, rfl⟩ | ⟨apart, -⟩
                · rfl
                · exact absurd rfl apart
              refine kept.commit rfl found done stands' (counts_append recorded same rfl) turns
                (fun key undisturbed => undisturbed.before later stay) (tied'.calls id txn found)
                (fun now read => accounted'.readBy id txn now found read) ?_
              intro consumed isAnswer
              refine inWindow old isOld consumed ?_
              rw [RateTxn.consumed?, ← isTxn, stands']
              exact isAnswer

/-- **In every run** whose attempts commit within their windows. -/
theorem inductive_kept :
    ((loginSystem primitives settings).restrict CommitsInWindow).Inductive fun state =>
      (Accounted primitives settings state.world ∧ Tied primitives settings state) ∧
        Kept settings state := by
  have base := System.Inductive.restrict (M := loginSystem primitives settings) inductive_tied
    CommitsInWindow
  refine base.strengthen ?_ ?_
  · rintro state ⟨clock, rfl⟩
    exact ⟨fun key limit isThere => (nomatch isThere), fun key _ => ⟨rfl, .inl rfl⟩⟩
  · intro state act next known kept step
    obtain ⟨inWindow, step⟩ := System.restrict_step.mp step
    obtain ⟨accounted', tied'⟩ := inductive_tied.preserved state act next known step
    exact kept.effect known.1 known.2 inWindow (LoginEffect.of_step step) accounted' tied'

end Kept

/-! ## The limiters -/

/-- The logins of a client address whose attempt its limiter has let pass in a window. -/
def pastAddressLimiter (state : LoginWorld) (client : ClientKey) (start : Nat) : List Login :=
  state.logins.filter fun login => decide (login.client = client) &&
    (granted? state.world.db login.address).any fun consumed =>
      decide (consumed.key.windowStartedAt = start)

variable (primitives : Primitives)

/-- A login of a user name and a client address. -/
def Login.Of (login : Login) (username : String) (client : ClientKey) :
    Prop :=
  primitives.canonicalUsername login.username = primitives.canonicalUsername username ∧
    login.client = client

instance (primitives : Primitives) (login : Login) (username : String) (client : ClientKey) :
    Decidable (login.Of primitives username client) :=
  inferInstanceAs (Decidable (_ ∧ _))

/-- The logins of a user name and a client address that reach the verification of the password,
by attempts in a window. -/
def reachVerification (state : LoginWorld) (username : String)
    (client : ClientKey) (start : Nat) : List Login :=
  state.logins.filter fun login => decide (login.Of primitives username client) &&
    (login.pair.bind (granted? state.world.db)).any fun consumed =>
      decide (consumed.key.windowStartedAt = start)

/-- `hmac_subject` tells the subjects of the logins apart. -/
def Separates (settings : AuthSettings) (logins : List Login) : Prop :=
  ∀ login ∈ logins, ∀ other ∈ logins,
    primitives.hmacSubject settings.authRateLimitSecret "login:username_ip"
        (pairSpec primitives settings login.username login.client).subject =
      primitives.hmacSubject settings.authRateLimitSecret "login:username_ip"
        (pairSpec primitives settings other.username other.client).subject →
    (pairSpec primitives settings login.username login.client).subject =
      (pairSpec primitives settings other.username other.client).subject

section Limiters

variable {primitives : Primitives} {settings : AuthSettings} {state : LoginWorld}

/-- **One bucket** lets at most its maximum of attempts pass. -/
theorem Kept.bound (kept : Kept settings state) {key : RateLimitKey}
    (undisturbed : Undisturbed settings state key)
    (recorded : Db.Recorded state.world.db) {ids : List Nat} (nodup : ids.Nodup) {maximum : Nat}
    (granted : ∀ id ∈ ids, ∃ consumed, granted? state.world.db id = some consumed ∧
      consumed.key = key ∧ consumed.maximum = maximum) : ids.length ≤ maximum := by
  -- the attempts that have returned a low count
  let low : Nat → Option Nat := fun id =>
    (countAt? state.world.db key id).filter fun count => decide (count ≤ maximum)
  have subset : ids ⊆ state.world.db.history.filter fun id => (low id).isSome := by
    intro id member
    obtain ⟨consumed, isGranted, isKey, isMaximum⟩ := granted id member
    obtain ⟨isCounted, isLow⟩ := granted?_eq_some.mp isGranted
    obtain ⟨txn, found, done, -⟩ := counted?_eq_some.mp isCounted
    refine List.mem_filter.mpr ⟨(recorded.iff id).mpr ⟨txn, found, done⟩, ?_⟩
    have isCount : countAt? state.world.db key id = some consumed.count := by
      simp [countAt?, isCounted, isKey]
    have isThere : low id = some consumed.count := by
      rw [isMaximum] at isLow
      simp [low, isCount, isLow]
    simp [isThere]
  have lowCounts : state.world.db.history.filterMap low ⊆ List.range' 1 maximum := by
    intro count member
    rw [← List.filter_filterMap] at member
    obtain ⟨isCount, isLow⟩ := List.mem_filter.mp member
    have inOrder : count ∈ counts state.world.db key := isCount
    rw [(kept.counting key undisturbed).1, List.mem_range'_1] at inOrder
    have le := of_decide_eq_true isLow
    exact List.mem_range'_1.mpr ⟨inOrder.1, by omega⟩
  have distinct : (state.world.db.history.filterMap low).Nodup := by
    rw [← List.filter_filterMap]
    have inOrder : (counts state.world.db key).Nodup :=
      (kept.counting key undisturbed).1 ▸ List.nodup_range'
    exact inOrder.filter _
  calc ids.length
      ≤ (state.world.db.history.filter fun id => (low id).isSome).length :=
        (List.subperm_of_subset nodup subset).length_le
    _ = (state.world.db.history.filterMap low).length := by
        rw [List.length_filterMap_eq_countP, List.countP_eq_length_filter]
    _ ≤ (List.range' 1 maximum).length := (List.subperm_of_subset distinct lowCounts).length_le
    _ = maximum := List.length_range'

/-- A text with a last separator is split in one way. -/
theorem append_cons_inj {α : Type} {a b c d : List α} {x : α} (notMem : x ∉ b) (notMem' : x ∉ d)
    (same : a ++ x :: b = c ++ x :: d) : a = c ∧ b = d := by
  rcases List.append_eq_append_iff.mp same with ⟨l, rfl, rest⟩ | ⟨l, rfl, rest⟩
  · cases l with
    | nil => exact ⟨(List.append_nil _).symm, (List.cons.inj rest).2⟩
    | cons y l =>
        obtain ⟨-, rfl⟩ := List.cons.inj rest
        simp at notMem
  · cases l with
    | nil => exact ⟨List.append_nil _, (List.cons.inj rest).2.symm⟩
    | cons y l =>
        obtain ⟨-, rfl⟩ := List.cons.inj rest
        simp at notMem'

variable {client : ClientKey} {login : Login} {start : Nat} {username : String}

/-- The subject of a pair tells its user name and its address. -/
theorem of_subject_eq {username' : String} {client' : ClientKey}
    (same : (pairSpec primitives settings username client).subject =
      (pairSpec primitives settings username' client').subject) :
    primitives.canonicalUsername username = primitives.canonicalUsername username' ∧
      client = client' := by
  have chars := congrArg String.toList same
  simp only [pairSpec, String.toList_append] at chars
  have split := append_cons_inj client.plain client'.plain (by simpa using chars)
  refine ⟨String.toList_injective split.1, ?_⟩
  obtain ⟨host, plain⟩ := client
  obtain ⟨host', plain'⟩ := client'
  obtain rfl : host = host' := String.toList_injective split.2
  rfl

/-- The bucket of a subject in a window. -/
def keyAt (primitives : Primitives) (settings : AuthSettings) (spec : RateLimitSpec)
    (start : Nat) : RateLimitKey where
  scope := spec.scope
  subjectHash := primitives.hmacSubject settings.authRateLimitSecret spec.scope spec.subject
  windowStartedAt := start

/-- What a login has been granted, it has been granted in the bucket of its attempt. -/
theorem Accounted.granted (accounted : Accounted primitives settings state.world)
    {spec : RateLimitSpec} {id : Nat} {consumed : ConsumedRateLimit}
    (granted : granted? state.world.db id = some consumed)
    (isCall : ∃ txn : RateTxn, state.world.db.txns[id]? = some txn ∧
      txn.call = .consumeRateLimit spec) :
    consumed.key = keyAt primitives settings spec consumed.key.windowStartedAt ∧
      consumed.maximum = spec.maximum := by
  obtain ⟨txn, found, call⟩ := isCall
  obtain ⟨txn', spec', now, found', call', -, key, maximum⟩ :=
    accounted.counted (granted?_eq_some.mp granted).1
  obtain rfl : txn' = txn := Option.some.inj (found'.symm.trans found)
  obtain rfl : spec' = spec := RateCall.consumeRateLimit.inj (call'.symm.trans call)
  refine ⟨?_, maximum⟩
  rw [key]
  rfl

/-- The bucket that a passed login drops is the one of its pair. -/
theorem bucket_of_passed (accounted : Accounted primitives settings state.world)
    (tied : Tied primitives settings state) (member : login ∈ state.logins)
    {key : RateLimitKey} {time : Nat} (passed : login.Passed state.world.db key time) :
    key = keyAt primitives settings (pairSpec primitives settings login.username login.client)
        key.windowStartedAt ∧ key.windowStartedAt ≤ time := by
  obtain ⟨isVerified, id, consumed, isPair, granted, rfl⟩ := passed
  obtain ⟨-, id', consumed', isPair', granted', opened⟩ :=
    (tied.each login member).verified time true isVerified
  obtain rfl : id' = id := Option.some.inj (isPair'.symm.trans isPair)
  obtain rfl : consumed' = consumed := Option.some.inj (granted'.symm.trans granted)
  exact ⟨(accounted.granted granted ((tied.each login member).pair _ isPair)).1, opened⟩

/-- No login drops the counter of an address. -/
theorem undisturbed_address (accounted : Accounted primitives settings state.world)
    (tied : Tied primitives settings state) (client : ClientKey) (start : Nat) :
    Undisturbed settings state
      (keyAt primitives settings (addressSpec settings client) start) := by
  intro login member time passed
  have scope := congrArg RateLimitKey.scope (bucket_of_passed accounted tied member passed).1
  simp [keyAt, addressSpec, pairSpec] at scope

/-- The counter of a pair is dropped only by a login of the pair that has passed. -/
theorem undisturbed_pair (accounted : Accounted primitives settings state.world)
    (tied : Tied primitives settings state) (separates : Separates primitives settings state.logins)
    {one : Login}
    (member : one ∈ state.logins) (isOf : one.Of primitives username client)
    (fails : ∀ login ∈ state.logins, login.Of primitives username client →
      ∀ time, login.verified = some (time, true) →
        ¬ (start ≤ time ∧ time < start + seconds settings.authLoginUsernameIpWindowSeconds)) :
    Undisturbed settings state
      (keyAt primitives settings (pairSpec primitives settings one.username one.client) start) := by
  intro login isLogin time passed
  obtain ⟨isKey, opened⟩ := bucket_of_passed accounted tied isLogin passed
  have hash := congrArg RateLimitKey.subjectHash isKey
  have subject := separates one member login isLogin hash
  obtain ⟨username', client'⟩ := of_subject_eq subject
  have outside := fails login isLogin ⟨username'.symm.trans isOf.1, client'.symm.trans isOf.2⟩ time
    passed.1
  have isEnd : windowEnd settings
      (keyAt primitives settings (pairSpec primitives settings one.username one.client) start) =
        start + seconds settings.authLoginUsernameIpWindowSeconds := by
    simp [windowEnd, keyAt, pairSpec]
  have opened : start ≤ time := opened
  rw [isEnd]
  omega

theorem mem_pastAddressLimiter :
    login ∈ pastAddressLimiter state client start ↔ login ∈ state.logins ∧ login.client = client ∧
      ∃ consumed, granted? state.world.db login.address = some consumed ∧
        consumed.key.windowStartedAt = start := by
  simp [pastAddressLimiter, Option.any_eq_true]

theorem mem_reachVerification :
    login ∈ reachVerification primitives state username client start ↔
      login ∈ state.logins ∧ login.Of primitives username client ∧
        ∃ id consumed, login.pair = some id ∧ granted? state.world.db id = some consumed ∧
          consumed.key.windowStartedAt = start := by
  simp only [reachVerification, List.mem_filter, Bool.and_eq_true, decide_eq_true_eq,
    Option.any_eq_true, Option.bind_eq_some_iff]
  refine and_congr_right fun _ => and_congr_right fun _ => ?_
  constructor
  · rintro ⟨consumed, ⟨id, isPair, granted⟩, isStart⟩
    exact ⟨id, consumed, isPair, granted, isStart⟩
  · rintro ⟨id, consumed, isPair, granted, isStart⟩
    exact ⟨consumed, ⟨id, isPair, granted⟩, isStart⟩

/-- **The address limiter.** -/
theorem length_pastAddressLimiter (accounted : Accounted primitives settings state.world)
    (tied : Tied primitives settings state) (kept : Kept settings state) (client : ClientKey)
    (start : Nat) : (pastAddressLimiter state client start).length ≤ settings.authLoginIpLimit := by
  have nodup : ((pastAddressLimiter state client start).map Login.address).Nodup :=
    tied.addresses.sublist (List.filter_sublist.map Login.address)
  have granted : ∀ id ∈ (pastAddressLimiter state client start).map Login.address,
      ∃ consumed, granted? state.world.db id = some consumed ∧
        consumed.key = keyAt primitives settings (addressSpec settings client) start ∧
        consumed.maximum = settings.authLoginIpLimit := by
    intro id isId
    obtain ⟨login, member, rfl⟩ := List.mem_map.mp isId
    obtain ⟨isLogin, rfl, consumed, granted, rfl⟩ := mem_pastAddressLimiter.mp member
    obtain ⟨isKey, isMaximum⟩ := accounted.granted granted (tied.each login isLogin).address
    exact ⟨consumed, granted, isKey, isMaximum⟩
  have bound := kept.bound (undisturbed_address accounted tied client start)
    accounted.account.chronicle.recorded nodup granted
  rwa [List.length_map] at bound

/-- **The limiter of a pair.** -/
theorem length_reachVerification (accounted : Accounted primitives settings state.world)
    (tied : Tied primitives settings state) (kept : Kept settings state)
    (separates : Separates primitives settings state.logins) (username : String)
    (client : ClientKey) (start : Nat)
    (fails : ∀ login ∈ state.logins, login.Of primitives username client →
      ∀ time, login.verified = some (time, true) →
        ¬ (start ≤ time ∧ time < start + seconds settings.authLoginUsernameIpWindowSeconds)) :
    (reachVerification primitives state username client start).length ≤
      settings.authLoginUsernameIpLimit := by
  cases shown : reachVerification primitives state username client start with
  | nil => exact Nat.zero_le _
  | cons one others =>
      have isOne : one ∈ reachVerification primitives state username client start :=
        shown ▸ List.mem_cons_self
      obtain ⟨isLogin, isOf, -⟩ := mem_reachVerification.mp isOne
      rw [← shown]
      have nodup :
          ((reachVerification primitives state username client start).filterMap Login.pair).Nodup :=
        tied.pairs.sublist (List.filter_sublist.filterMap Login.pair)
      have all : ((reachVerification primitives state username client start).filterMap
          Login.pair).length = (reachVerification primitives state username client start).length := by
        rw [List.length_filterMap_eq_countP, List.countP_eq_length]
        intro login member
        obtain ⟨-, -, id, consumed, isPair, -⟩ := mem_reachVerification.mp member
        simp [isPair]
      have granted : ∀ id ∈ (reachVerification primitives state username client start).filterMap
          Login.pair, ∃ consumed, granted? state.world.db id = some consumed ∧
            consumed.key = keyAt primitives settings
              (pairSpec primitives settings one.username one.client) start ∧
            consumed.maximum = settings.authLoginUsernameIpLimit := by
        intro id isId
        obtain ⟨login, member, isPair⟩ := List.mem_filterMap.mp isId
        obtain ⟨isLogin', isOf', id', consumed, isPair', granted, rfl⟩ :=
          mem_reachVerification.mp member
        obtain rfl : id' = id := Option.some.inj (isPair'.symm.trans isPair)
        obtain ⟨isKey, isMaximum⟩ :=
          accounted.granted granted ((tied.each login isLogin').pair _ isPair)
        refine ⟨consumed, granted, isKey.trans ?_, isMaximum⟩
        have client' : login.client = one.client := isOf'.2.trans isOf.2.symm
        have username' : primitives.canonicalUsername login.username =
            primitives.canonicalUsername one.username := isOf'.1.trans isOf.1.symm
        rw [pairSpec, pairSpec, client', username']
      have bound := kept.bound (undisturbed_pair accounted tied separates isLogin isOf fails)
        accounted.account.chronicle.recorded nodup granted
      rwa [all] at bound

/-- **Logins are limited**: in every run whose attempts commit within their windows, the logins
of a client address that get past its limiter in a window are no more than its limit, and the
logins of a user name and an address that reach the verification of the password are no more
than theirs when none of them passes it within the window. -/
theorem logins_limited
    (reached : ((loginSystem primitives settings).restrict CommitsInWindow).Reachable state)
    (client : ClientKey) (start : Nat) :
    (pastAddressLimiter state client start).length ≤ settings.authLoginIpLimit ∧
      ∀ username, Separates primitives settings state.logins →
        (∀ login ∈ state.logins, login.Of primitives username client →
          ∀ time, login.verified = some (time, true) →
            ¬ (start ≤ time ∧
              time < start + seconds settings.authLoginUsernameIpWindowSeconds)) →
        (reachVerification primitives state username client start).length ≤
          settings.authLoginUsernameIpLimit := by
  obtain ⟨⟨accounted, tied⟩, kept⟩ := inductive_kept.of_reachable reached
  refine ⟨length_pastAddressLimiter accounted tied kept client start, ?_⟩
  intro username separates fails
  exact length_reachVerification accounted tied kept separates username client start fails

end Limiters

/-! ## Two failing logins -/

section Example

open Accounts (plain)

/-- An address. -/
def home : ClientKey := ⟨"10.0.0.1", by decide⟩

/-- The steps of an attempt. -/
def attempt (id : Nat) : List LoginAct :=
  [.onDb (.clock id 0), .onDb (.perform id), .onDb (.commit id)]

/-- Two logins of one user, both with a wrong password. -/
def twoLogins : List LoginAct :=
  [.start "alice" home, .start "alice" home] ++ attempt 0 ++ attempt 1 ++
    [.proceed 0, .proceed 1] ++ attempt 3 ++ attempt 2 ++ [.verify 1 false, .verify 0 false]

/-- A database without counters, ten minutes after the epoch. -/
def tenMinutes : LoginWorld := { world := ⟨seconds 600, { state := Table.empty }⟩ }

theorem logins_limited_two : ∃ state,
    (loginSystem plain {}).exec tenMinutes twoLogins = some state ∧
      (pastAddressLimiter state home (seconds 600)).length = 2 ∧
      (pastAddressLimiter state home (seconds 600)).length ≤ 30 ∧
      (reachVerification plain state "alice" home (seconds 600)).length = 2 ∧
      (reachVerification plain state "alice" home (seconds 600)).length ≤ 5 := by
  have ran : ((loginSystem plain {}).exec tenMinutes twoLogins).map (fun state =>
      ((pastAddressLimiter state home (seconds 600)).length,
        (reachVerification plain state "alice" home (seconds 600)).length,
        state.logins.all fun login => decide (login.username = "alice" ∧ login.client = home ∧
          login.verified = some (seconds 600, false)))) = some (2, 2, true) := by
    decide +kernel
  have along : (loginSystem plain {}).Along CommitsInWindow tenMinutes twoLogins := by
    decide +kernel
  obtain ⟨state, done, facts⟩ := Option.map_eq_some_iff.mp ran
  obtain ⟨two, rest⟩ := Prod.mk.inj facts
  obtain ⟨two', logins⟩ := Prod.mk.inj rest
  have reached : ((loginSystem plain {}).restrict CommitsInWindow).Reachable state :=
    ⟨tenMinutes, ⟨seconds 600, rfl⟩, System.leads_restrict_of_exec done along⟩
  have each : ∀ login ∈ state.logins, login.username = "alice" ∧ login.client = home ∧
      login.verified = some (seconds 600, false) := by
    intro login member
    exact of_decide_eq_true (List.all_eq_true.mp logins login member)
  have limited := logins_limited reached home (seconds 600)
  refine ⟨state, done, two, limited.1, two', limited.2 "alice" ?_ ?_⟩
  · intro login member other member' _
    obtain ⟨name, client, -⟩ := each login member
    obtain ⟨name', client', -⟩ := each other member'
    rw [name, name', client, client']
  · intro login member _ time verified
    obtain ⟨-, -, failed⟩ := each login member
    simp [failed] at verified

end Example

end OpsComposer.RateLimits
