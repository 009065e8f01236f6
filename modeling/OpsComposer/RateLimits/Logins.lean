import OpsComposer.RateLimits.Commits

/-!
# The transactions of logins

Each transaction counts an attempt of some login, drops the bucket of a login that has passed
the verification of its password, or is a purge; each login has counted attempts of its own,
and what it has been granted stays granted (`Tied`, an invariant of every run).
-/

set_option autoImplicit false

namespace OpsComposer.RateLimits

open Domain Foundations Services
open Services.AuthService (RateLimitSpec fixedWindow)

/-! ## What a step does -/

/-- A call comes in. -/
def Begins (primitives : Primitives) (settings : AuthSettings) (world : RateWorld)
    (call : RateCall) (world' : RateWorld) : Prop :=
  world.step (rateService primitives settings) (.onDb (.begin call)) = some world'

/-- What one step of a login or of the database does. -/
inductive LoginEffect (primitives : Primitives) (settings : AuthSettings) (state : LoginWorld) :
    LoginAct → LoginWorld → Prop where
  | started {username : String} {client : ClientKey} {world : RateWorld}
      (begins : Begins primitives settings state.world
        (.consumeRateLimit (addressSpec settings client)) world) :
      LoginEffect primitives settings state (.start username client)
        { world := world
          logins := state.logins ++
            [{ username := username, client := client, address := state.world.db.txns.length }] }
  | proceeded {i : Nat} {before after : List Login} {login : Login} {world : RateWorld}
      (split : state.logins = before ++ login :: after) (waits : login.pair = none)
      (begins : Begins primitives settings state.world
        (.consumeRateLimit (pairSpec primitives settings login.username login.client)) world) :
      LoginEffect primitives settings state (.proceed i)
        { world := world
          logins := before ++ { login with pair := some state.world.db.txns.length } :: after }
  | verified {i id : Nat} {valid : Bool} {before after : List Login} {login : Login}
      {bucket : ConsumedRateLimit} {world : RateWorld}
      (split : state.logins = before ++ login :: after) (waits : login.verified = none)
      (isPair : login.pair = some id) (granted : granted? state.world.db id = some bucket)
      (begins : if valid then
          Begins primitives settings state.world (.clearRateLimit bucket.key) world
        else world = state.world) :
      LoginEffect primitives settings state (.verify i valid)
        { world := world
          logins := before ++
            { login with verified := some (state.world.clock, valid) } :: after }
  | purging {world : RateWorld} (begins : Begins primitives settings state.world .purgeExpired world) :
      LoginEffect primitives settings state .purge { state with world := world }
  | idle {elapsed : Nat} :
      LoginEffect primitives settings state (.tick elapsed)
        { state with world := { state.world with clock := state.world.clock + elapsed } }
  | onDb {action : DbAction RateCall} {world : RateWorld} (silent : ∀ call, action ≠ .begin call)
      (step : state.world.step (rateService primitives settings) (.onDb action) = some world) :
      LoginEffect primitives settings state (.onDb action) { state with world := world }

/-- A list is split at one of its places. -/
theorem split_of_getElem? {α : Type} {l : List α} {i : Nat} {a : α} (found : l[i]? = some a) :
    ∃ before after, l = before ++ a :: after ∧ ∀ b, l.set i b = before ++ b :: after := by
  obtain ⟨bound, rfl⟩ := List.getElem?_eq_some_iff.mp found
  refine ⟨l.take i, l.drop (i + 1), ?_, fun b => ?_⟩
  · rw [List.getElem_cons_drop, List.take_append_drop]
  · rw [List.set_eq_take_append_cons_drop, if_pos bound]

section Steps

variable {primitives : Primitives} {settings : AuthSettings} {state next : LoginWorld}

theorem begins_of_beginCall {call : RateCall} {logins : List Login}
    (step : state.beginCall primitives settings call logins = some next) :
    ∃ world, Begins primitives settings state.world call world ∧
      next = { world := world, logins := logins } := by
  obtain ⟨world, begins, rfl⟩ := Option.map_eq_some_iff.mp step
  exact ⟨world, begins, rfl⟩

/-- **Inversion.** -/
theorem LoginEffect.of_step {act : LoginAct}
    (step : state.step primitives settings act = some next) :
    LoginEffect primitives settings state act next := by
  cases act with
  | start username client =>
      obtain ⟨world, begins, rfl⟩ := begins_of_beginCall step
      exact .started begins
  | proceed i =>
      obtain ⟨login, found, rest⟩ := Option.bind_eq_some_iff.mp step
      obtain ⟨before, after, split, replaced⟩ := split_of_getElem? found
      obtain ⟨⟨waits, -⟩, rest⟩ := Option.ite_none_right_eq_some.mp rest
      obtain ⟨world, begins, rfl⟩ := begins_of_beginCall rest
      rw [replaced]
      exact .proceeded split (Option.isNone_iff_eq_none.mp waits) begins
  | verify i valid =>
      obtain ⟨login, found, rest⟩ := Option.bind_eq_some_iff.mp step
      obtain ⟨before, after, split, replaced⟩ := split_of_getElem? found
      obtain ⟨waits, rest⟩ := Option.ite_none_right_eq_some.mp rest
      obtain ⟨bucket, isBucket, rest⟩ := Option.bind_eq_some_iff.mp rest
      obtain ⟨id, isPair, granted⟩ := Option.bind_eq_some_iff.mp isBucket
      have waits := Option.isNone_iff_eq_none.mp waits
      cases valid with
      | false =>
          obtain rfl := Option.some.inj rest
          rw [replaced]
          exact .verified split waits isPair granted rfl
      | true =>
          obtain ⟨world, begins, rfl⟩ := begins_of_beginCall rest
          rw [replaced]
          exact .verified split waits isPair granted begins
  | purge =>
      obtain ⟨world, begins, rfl⟩ := begins_of_beginCall step
      exact .purging begins
  | tick elapsed => exact Option.some.inj step ▸ .idle
  | onDb action =>
      cases action with
      | begin call => cases step
      | clock id now | snapshot id | perform id | check id | commit id | abort id =>
          obtain ⟨world, moved, rfl⟩ := Option.map_eq_some_iff.mp step
          exact .onDb nofun moved

/-- Every step but a failed verification is one of the database in time. -/
theorem LoginEffect.world {act : LoginAct}
    (effect : LoginEffect primitives settings state act next) :
    next.world = state.world ∨
      ∃ dbAct, state.world.step (rateService primitives settings) dbAct = some next.world := by
  cases effect with
  | started begins | proceeded _ _ begins | purging begins => exact .inr ⟨_, begins⟩
  | @verified _ _ valid _ _ _ _ _ _ _ _ _ begins =>
      cases valid with
      | false => exact .inl begins
      | true => exact .inr ⟨_, begins⟩
  | @idle elapsed => exact .inr ⟨.tick elapsed, rfl⟩
  | onDb _ step => exact .inr ⟨_, step⟩

end Steps

/-! ## What stays -/

/-- Time has passed, and transactions have gone on. -/
structure Later (world world' : RateWorld) : Prop where
  clock : world.clock ≤ world'.clock
  stays : ∀ (id : Nat) (txn : RateTxn), world.db.txns[id]? = some txn →
    ∃ txn' : RateTxn, world'.db.txns[id]? = some txn' ∧ txn'.call = txn.call
  counted : ∀ (id : Nat) (consumed : ConsumedRateLimit), counted? world.db id = some consumed →
    counted? world'.db id = some consumed

section Later

variable {primitives : Primitives} {settings : AuthSettings} {world world' : RateWorld}

variable {consumed : ConsumedRateLimit} {id : Nat}

theorem counted?_eq_some {db : RateDb} :
    counted? db id = some consumed ↔
      ∃ txn : RateTxn, db.txns[id]? = some txn ∧ txn.status = .committed ∧
        txn.program = .done (some consumed) := by
  rw [counted?, Option.bind_eq_some_iff]
  refine exists_congr fun txn => and_congr_right fun _ => ?_
  rw [Option.ite_none_right_eq_some]
  refine and_congr_right fun _ => ?_
  unfold RateTxn.consumed?
  cases txn.program <;> simp

theorem granted?_eq_some {db : RateDb} :
    granted? db id = some consumed ↔
      counted? db id = some consumed ∧ consumed.count ≤ consumed.maximum := by
  simp [granted?, Option.filter_eq_some_iff]

theorem Later.refl (world : RateWorld) : Later world world :=
  ⟨le_rfl, fun _ txn found => ⟨txn, found, rfl⟩, fun _ _ => id⟩

theorem Later.of_step {act : DbAct RateCall}
    (step : world.step (rateService primitives settings) act = some world') :
    Later world world' := by
  cases WorldEffect.of_step step with
  | idle => exact ⟨Nat.le_add_right _ _, fun _ txn found => ⟨txn, found, rfl⟩, fun _ _ => id⟩
  | onDb effect _ =>
      refine ⟨le_rfl, fun id txn found => effect.stays found, fun id consumed counted => ?_⟩
      obtain ⟨txn, found, done, stands⟩ := counted?_eq_some.mp counted
      exact counted?_eq_some.mpr ⟨txn, effect.committed_stays found done, done, stands⟩

theorem Later.granted (later : Later world world')
    (granted : granted? world.db id = some consumed) : granted? world'.db id = some consumed := by
  obtain ⟨counted, low⟩ := granted?_eq_some.mp granted
  exact granted?_eq_some.mpr ⟨later.counted id consumed counted, low⟩

theorem LoginEffect.later {state next : LoginWorld} {act : LoginAct}
    (effect : LoginEffect primitives settings state act next) : Later state.world next.world := by
  rcases effect.world with same | ⟨dbAct, step⟩
  · rw [same]
    exact .refl _
  · exact .of_step step

end Later

/-! ## The database of a run -/

/-- The database has its account, and nobody has read the future. -/
structure Accounted (primitives : Primitives) (settings : AuthSettings) (world : RateWorld) :
    Prop where
  account : (rateService primitives settings).Account RateStatement.effects (fun _ _ => True)
    (Outcome primitives settings) (fun _ _ _ => True) Table.empty world.db
  readBy : Db.ReadBy world.db world.clock

section Accounted

variable {primitives : Primitives} {settings : AuthSettings} {world world' : RateWorld}

theorem Accounted.initial (clock : Nat) :
    Accounted primitives settings ⟨clock, { state := Table.empty }⟩ where
  account :=
    { chronicle := .initial _
      points := fun _ _ found => by simp at found
      admits := fun _ _ _ next => by simp at next }
  readBy _ _ _ found := by simp at found

theorem Accounted.step (accounted : Accounted primitives settings world) {act : DbAct RateCall}
    (step : world.step (rateService primitives settings) act = some world') :
    Accounted primitives settings world' where
  account := by
    have allowed : (((rateService primitives settings).system fun store =>
        store = Table.empty).restrict fun _ _ => True).step world act = some world' :=
      System.restrict_step.mpr ⟨trivial, step⟩
    exact accounted.account.step tellable (fun _ _ _ _ _ _ => trivial) ends_program
      (fun _ _ _ _ _ => trivial) allowed
  readBy := by
    cases WorldEffect.of_step step with
    | idle =>
        exact fun id txn now found read =>
          (accounted.readBy id txn now found read).trans (Nat.le_add_right _ _)
    | onDb effect _ => exact accounted.readBy.effect effect

/-- What an attempt has counted, it has counted in the bucket of an instant of the past. -/
theorem Accounted.counted (accounted : Accounted primitives settings world) {id : Nat}
    {consumed : ConsumedRateLimit} (counted : counted? world.db id = some consumed) :
    ∃ (txn : RateTxn) (spec : RateLimitSpec) (now : Nat), world.db.txns[id]? = some txn ∧
      txn.call = .consumeRateLimit spec ∧ now ≤ world.clock ∧
        consumed.key = bucketOf primitives settings spec now ∧
        consumed.maximum = spec.maximum := by
  obtain ⟨txn, found, done, stands⟩ := counted?_eq_some.mp counted
  have outcome := (accounted.account.points id txn found).here _ stands
  have readBy := accounted.readBy id txn
  generalize isCall : txn.call = call at outcome
  generalize txn.log = log at outcome readBy
  cases outcome with
  | consumed first => exact ⟨txn, _, _, found, isCall, readBy _ found List.mem_cons_self, rfl, rfl⟩

end Accounted

theorem le_of_fixedWindow (now windowSeconds : Nat) : (fixedWindow now windowSeconds).1 ≤ now := by
  have le : now / 1000000 - now / 1000000 % windowSeconds ≤ now / 1000000 := Nat.sub_le _ _
  calc (fixedWindow now windowSeconds).1
      ≤ now / 1000000 * 1000000 := Nat.mul_le_mul_right _ le
    _ ≤ now := Nat.div_mul_le_self _ _

/-! ## The logins of a run -/

/-- The password of a login that a bucket has counted was right at an instant. -/
def Login.Passed (db : RateDb) (login : Login) (bucket : RateLimitKey) (time : Nat) : Prop :=
  login.verified = some (time, true) ∧
    ∃ id consumed, login.pair = some id ∧ granted? db id = some consumed ∧ consumed.key = bucket

/-- The transactions of a login count its attempts, and it has verified the password after
the second. -/
structure Login.Tied (primitives : Primitives) (settings : AuthSettings) (world : RateWorld)
    (login : Login) : Prop where
  address : ∃ txn : RateTxn, world.db.txns[login.address]? = some txn ∧
    txn.call = .consumeRateLimit (addressSpec settings login.client)
  pair : ∀ id, login.pair = some id → ∃ txn : RateTxn, world.db.txns[id]? = some txn ∧
    txn.call = .consumeRateLimit (pairSpec primitives settings login.username login.client)
  verified : ∀ time valid, login.verified = some (time, valid) → time ≤ world.clock ∧
    ∃ id consumed, login.pair = some id ∧ granted? world.db id = some consumed ∧
      consumed.key.windowStartedAt ≤ time

/-- The calls of a run: attempts of logins, the end of a login that has passed, and purges. -/
inductive Known (primitives : Primitives) (settings : AuthSettings) (state : LoginWorld) :
    RateCall → Prop where
  | address (client : ClientKey) :
      Known primitives settings state (.consumeRateLimit (addressSpec settings client))
  | pair (username : String) (client : ClientKey) :
      Known primitives settings state
        (.consumeRateLimit (pairSpec primitives settings username client))
  | passed {login : Login} {bucket : RateLimitKey} {time : Nat} (member : login ∈ state.logins)
      (passed : login.Passed state.world.db bucket time) (past : time ≤ state.world.clock) :
      Known primitives settings state (.clearRateLimit bucket)
  | purge : Known primitives settings state .purgeExpired

/-- The logins and the calls of the limiter belong together. -/
structure Tied (primitives : Primitives) (settings : AuthSettings) (state : LoginWorld) : Prop where
  each : ∀ login ∈ state.logins, login.Tied primitives settings state.world
  addresses : (state.logins.map Login.address).Nodup
  pairs : (state.logins.filterMap Login.pair).Nodup
  calls : ∀ (id : Nat) (txn : RateTxn), state.world.db.txns[id]? = some txn →
    Known primitives settings state txn.call

section Tied

variable {primitives : Primitives} {settings : AuthSettings} {state next : LoginWorld}
  {world world' : RateWorld} {login : Login}

theorem Login.Tied.later (tied : login.Tied primitives settings world)
    (later : Later world world') : login.Tied primitives settings world' where
  address := by
    obtain ⟨txn, found, isCall⟩ := tied.address
    obtain ⟨txn', found', same⟩ := later.stays _ txn found
    exact ⟨txn', found', same.trans isCall⟩
  pair id isPair := by
    obtain ⟨txn, found, isCall⟩ := tied.pair id isPair
    obtain ⟨txn', found', same⟩ := later.stays _ txn found
    exact ⟨txn', found', same.trans isCall⟩
  verified time valid isVerified := by
    obtain ⟨past, id, consumed, isPair, granted, opened⟩ := tied.verified time valid isVerified
    exact ⟨past.trans later.clock, id, consumed, isPair, later.granted granted, opened⟩

theorem Login.Passed.later {bucket : RateLimitKey} {time : Nat}
    (passed : login.Passed world.db bucket time) (later : Later world world') :
    login.Passed world'.db bucket time := by
  obtain ⟨isVerified, id, consumed, isPair, granted, key⟩ := passed
  exact ⟨isVerified, id, consumed, isPair, later.granted granted, key⟩

variable {after before : List Login} {call : RateCall}

theorem Known.later (known : Known primitives settings state call)
    (later : Later state.world next.world)
    (stay : ∀ login ∈ state.logins, login.verified.isSome → login ∈ next.logins) :
    Known primitives settings next call := by
  cases known with
  | address client => exact .address client
  | pair username client => exact .pair username client
  | @passed login bucket time member passed past =>
      have isVerified : login.verified.isSome := by simp [passed.1]
      exact .passed (stay login member isVerified) (passed.later later) (past.trans later.clock)
  | purge => exact .purge

/-- The transactions of a login are old. -/
theorem Login.Tied.old (tied : login.Tied primitives settings world) :
    login.address < world.db.txns.length ∧ ∀ id, login.pair = some id → id < world.db.txns.length := by
  constructor
  · obtain ⟨txn, found, -⟩ := tied.address
    exact (List.getElem?_eq_some_iff.mp found).choose
  · intro id isPair
    obtain ⟨txn, found, -⟩ := tied.pair id isPair
    exact (List.getElem?_eq_some_iff.mp found).choose

/-- A call that comes in is the last transaction. -/
theorem Begins.last (begins : Begins primitives settings world call world') :
    ∃ txn : RateTxn, world'.db.txns[world.db.txns.length]? = some txn ∧ txn.call = call := by
  obtain rfl := Option.some.inj begins
  exact ⟨_, List.getElem?_concat_length, rfl⟩

/-- Every transaction was there before, or the call has begun it. -/
theorem Begins.origin (begins : Begins primitives settings world call world')
    {id : Nat} {txn : RateTxn} (present : world'.db.txns[id]? = some txn) :
    world.db.txns[id]? = some txn ∨ txn.call = call := by
  obtain rfl := Option.some.inj begins
  rcases Db.of_getElem?_append present with ⟨-, rfl⟩ | old
  · exact .inr rfl
  · exact .inl old

/-- The calls of a run stay known when one more call comes in. -/
theorem Tied.calls_begin (tied : Tied primitives settings state)
    (begins : Begins primitives settings state.world call next.world)
    (stay : ∀ login ∈ state.logins, login.verified.isSome → login ∈ next.logins)
    (known : Known primitives settings next call) (id : Nat) (txn : RateTxn)
    (found : next.world.db.txns[id]? = some txn) : Known primitives settings next txn.call := by
  rcases begins.origin found with old | isCall
  · exact (tied.calls id txn old).later (Later.of_step begins) stay
  · exact isCall ▸ known

/-- The first transaction of a login is new to the others. -/
theorem Tied.addresses_concat (tied : Tied primitives settings state)
    (isNew : login.address = state.world.db.txns.length) :
    ((state.logins ++ [login]).map Login.address).Nodup := by
  rw [List.map_append, List.map_singleton, ← List.concat_eq_append, List.nodup_concat]
  refine ⟨fun member => ?_, tied.addresses⟩
  obtain ⟨other, isLogin, same⟩ := List.mem_map.mp member
  have old := (tied.each other isLogin).old.1
  omega

/-- The second transaction of a login is new to the others. -/
theorem Tied.pairs_insert (tied : Tied primitives settings state)
    (split : state.logins = before ++ login :: after) (waits : login.pair = none) :
    ((before ++ { login with pair := some state.world.db.txns.length } :: after).filterMap
      Login.pair).Nodup := by
  have pairs := tied.pairs
  have fresh : state.world.db.txns.length ∉ state.logins.filterMap Login.pair := by
    intro member
    obtain ⟨other, isLogin, isPair⟩ := List.mem_filterMap.mp member
    exact lt_irrefl _ ((tied.each other isLogin).old.2 _ isPair)
  rw [split, List.filterMap_append, List.filterMap_cons_none waits] at pairs fresh
  have isNew : Login.pair { login with pair := some state.world.db.txns.length } =
      some state.world.db.txns.length := rfl
  rw [List.filterMap_append, List.filterMap_cons_some isNew, List.nodup_middle]
  exact List.nodup_cons.mpr ⟨fresh, pairs⟩

/-- A login that is replaced by another has not been verified, and all others stay. -/
theorem stay_of_split (login' : Login)
    (split : state.logins = before ++ login :: after) (waits : login.verified = none) :
    ∀ other ∈ state.logins, other.verified.isSome → other ∈ before ++ login' :: after := by
  intro other member isVerified
  rw [split, List.mem_append, List.mem_cons] at member
  rcases member with first | rfl | last
  · exact List.mem_append_left _ first
  · simp [waits] at isVerified
  · exact List.mem_append_right _ (List.mem_cons_of_mem _ last)

/-- The logins after one of them has been replaced. -/
theorem Tied.each_split (tied : Tied primitives settings state)
    {login' : Login} (split : state.logins = before ++ login :: after)
    (later : Later state.world world') (isTied : login'.Tied primitives settings world') :
    ∀ other ∈ before ++ login' :: after, other.Tied primitives settings world' := by
  intro other member
  rw [List.mem_append, List.mem_cons] at member
  rcases member with first | rfl | last
  · exact (tied.each other (split ▸ List.mem_append_left _ first)).later later
  · exact isTied
  · have isLogin : other ∈ state.logins :=
      split ▸ List.mem_append_right _ (List.mem_cons_of_mem _ last)
    exact (tied.each other isLogin).later later

/-- A login that waits for its second limiter has not verified its password. -/
theorem Login.Tied.verified_eq_none (tied : login.Tied primitives settings world)
    (waits : login.pair = none) : login.verified = none := by
  cases isVerified : login.verified with
  | none => rfl
  | some verified =>
      obtain ⟨-, id, consumed, isPair, -⟩ := tied.verified _ _ isVerified
      exact nomatch waits.symm.trans isPair

/-- **One step.** -/
theorem Tied.effect (tied : Tied primitives settings state)
    (accounted : Accounted primitives settings state.world) {act : LoginAct}
    (effect : LoginEffect primitives settings state act next) : Tied primitives settings next := by
  have later := effect.later
  cases effect with
  | @started username client world begins =>
      obtain ⟨txn, found, isCall⟩ := begins.last
      refine ⟨fun login member => ?_, tied.addresses_concat rfl, ?_, ?_⟩
      · rcases List.mem_append.mp member with old | isNew
        · exact (tied.each login old).later later
        · obtain rfl := List.mem_singleton.mp isNew
          exact ⟨⟨txn, found, isCall⟩, nofun, nofun⟩
      · rw [List.filterMap_append]
        exact (List.append_nil _).symm ▸ tied.pairs
      · exact tied.calls_begin begins
          (fun login member _ => List.mem_append_left _ member) (.address client)
  | @proceeded i before after login world split waits begins =>
      obtain ⟨txn, found, isCall⟩ := begins.last
      have member : login ∈ state.logins := split ▸ List.mem_append_right _ List.mem_cons_self
      have isTied := (tied.each login member).later later
      have unverified := isTied.verified_eq_none waits
      refine ⟨?_, ?_, tied.pairs_insert split waits, ?_⟩
      · refine tied.each_split split later ⟨isTied.address, ?_, ?_⟩
        · rintro _ ⟨⟩
          exact ⟨txn, found, isCall⟩
        · exact fun time valid isVerified => nomatch unverified.symm.trans isVerified
      · have addresses := tied.addresses
        rw [split] at addresses
        simpa using addresses
      · exact tied.calls_begin begins (stay_of_split _ split unverified)
          (.pair login.username login.client)
  | @verified i id valid before after login bucket world split waits isPair granted begins =>
      have member : login ∈ state.logins := split ▸ List.mem_append_right _ List.mem_cons_self
      have isTied := (tied.each login member).later later
      have opened : bucket.key.windowStartedAt ≤ state.world.clock := by
        obtain ⟨-, spec, now, -, -, past, key, -⟩ :=
          accounted.counted (granted?_eq_some.mp granted).1
        rw [key]
        exact (le_of_fixedWindow now _).trans past
      have stay := stay_of_split { login with verified := some (state.world.clock, valid) } split
        waits
      refine ⟨?_, ?_, ?_, ?_⟩
      · refine tied.each_split split later ⟨isTied.address, isTied.pair, ?_⟩
        rintro _ _ ⟨⟩
        exact ⟨later.clock, id, bucket, isPair, later.granted granted, opened⟩
      · have addresses := tied.addresses
        rw [split] at addresses
        simpa using addresses
      · have pairs := tied.pairs
        rw [split] at pairs
        simpa [List.filterMap_cons] using pairs
      · cases valid with
        | false =>
            obtain rfl : world = state.world := begins
            exact fun id txn found => (tied.calls id txn found).later later stay
        | true =>
            refine tied.calls_begin begins stay ?_
            refine .passed (List.mem_append_right _ List.mem_cons_self) ?_ later.clock
            exact ⟨rfl, id, bucket, isPair, later.granted granted, rfl⟩
  | @purging world begins =>
      refine ⟨fun login member => (tied.each login member).later later, tied.addresses, tied.pairs,
        ?_⟩
      exact tied.calls_begin begins (fun _ member _ => member) .purge
  | idle =>
      refine ⟨fun login member => (tied.each login member).later later, tied.addresses, tied.pairs,
        fun id txn found => ?_⟩
      exact (tied.calls id txn found).later later fun _ member _ => member
  | @onDb action world silent step =>
      refine ⟨fun login member => (tied.each login member).later later, tied.addresses, tied.pairs,
        fun id txn found => ?_⟩
      cases WorldEffect.of_step step with
      | onDb effect _ =>
          rcases effect.origin found with ⟨old, isOld, same⟩ | ⟨-, isCall⟩
          · exact same ▸ (tied.calls id old isOld).later later fun _ member _ => member
          · exact absurd isCall (silent _)

/-- **In every run** the database has its account and the logins their transactions. -/
theorem inductive_tied : (loginSystem primitives settings).Inductive fun state =>
    Accounted primitives settings state.world ∧ Tied primitives settings state where
  initial := by
    rintro state ⟨clock, rfl⟩
    refine ⟨.initial clock, ?_, List.nodup_nil, List.nodup_nil, ?_⟩
    · exact fun login member => nomatch member
    · exact fun id txn found => nomatch found
  preserved state act next holds step := by
    have effect := LoginEffect.of_step step
    refine ⟨?_, holds.2.effect holds.1 effect⟩
    rcases effect.world with same | ⟨dbAct, moved⟩
    · exact same ▸ holds.1
    · exact holds.1.step moved

end Tied

end OpsComposer.RateLimits
