import OpsComposer.Foundations.DbWorld
import OpsComposer.Services.Auth

/-!
# The counters of logins

The rows of `auth_rate_limits` with the transactions that write them, and the logins that run
these transactions one after the other: `login` counts an attempt of its client address, then
one of the pair of user name and address, each in a transaction of its own, and compares a
count with its maximum when it has been committed.  Only then does it verify the password, and
the unit of work of a login with the right password drops the counter of the pair.

Of that unit of work only its statement on `auth_rate_limits` is modelled.  The environment
says what comes of the verification, and it may let any transaction fail.
-/

set_option autoImplicit false

namespace OpsComposer.RateLimits

open Domain Foundations Services
open Services.AuthService (RateLimitSpec fixedWindow)

/-! ## Statements -/

/-- The table `auth_rate_limits`. -/
abbrev RateStore := Table RateLimit.key

/-- The statements of `PostgresAuthRepository` on `auth_rate_limits`. -/
inductive RateStatement where
  | consumeRateLimit (key : RateLimitKey) (expiresAt : Nat)
  | clearRateLimit (key : RateLimitKey)
  | purgeExpired (now : Nat)

/-- What a statement does to the table, as it is when it starts. -/
def RateStatement.meaning : RateStatement → RateStore → Command RateStore RateLimitKey RateLimit
  | .consumeRateLimit key expiresAt, _ =>
      .upsert { key := key, attemptCount := 1, expiresAt := expiresAt }
        (fun limit =>
          { limit with attemptCount := limit.attemptCount + 1, expiresAt := expiresAt })
        fun _ => rfl
  | .clearRateLimit key, _ => .delete fun limit => decide (limit.key = key)
  | .purgeExpired now, _ => .delete fun limit => decide (limit.expiresAt ≤ now)

/-- What a statement has written, by the rows that it returns. -/
def RateStatement.effects : RateStatement → List RateLimit → List (Write RateLimitKey RateLimit)
  | .consumeRateLimit _ _, rows => rows.map .put
  | .clearRateLimit _, rows => rows.map fun limit => .erase limit.key
  | .purgeExpired _, rows => rows.map fun limit => .erase limit.key

/-! ## Transactions -/

/-- A bucket after one more attempt. -/
structure ConsumedRateLimit where
  key : RateLimitKey
  resetAt : Nat
  count : Nat
  maximum : Nat
  deriving DecidableEq

variable (primitives : Primitives) (settings : AuthSettings)

/-- The bucket of an attempt at an instant. -/
def bucketOf (spec : RateLimitSpec)
    (now : Nat) : RateLimitKey where
  scope := spec.scope
  subjectHash := primitives.hmacSubject settings.authRateLimitSecret spec.scope spec.subject
  windowStartedAt := (fixedWindow now spec.windowSeconds).1

/-- A unit of work on the buckets. -/
abbrev RateProgram := Program RateStatement RateLimit AuthError

/-- The unit of work of `_consume_rate_limit`. -/
def consumeRateLimit (primitives : Primitives) (settings : AuthSettings) (spec : RateLimitSpec) :
    RateProgram (Option ConsumedRateLimit) := do
  let now ← Program.now
  let bucket := bucketOf primitives settings spec now
  let resetAt := (fixedWindow now spec.windowSeconds).2
  let rows ← Program.execute (.consumeRateLimit bucket resetAt)
  let row ← Program.orFail .undeclared rows.head?
  return some
    { key := bucket, resetAt := resetAt, count := row.attemptCount, maximum := spec.maximum }

/-- The unit of work of a login whose password is right. -/
def clearRateLimit (bucket : RateLimitKey) : RateProgram (Option ConsumedRateLimit) := do
  let _ ← Program.execute (.clearRateLimit bucket)
  return none

/-- `purge_expired` for the buckets. -/
def purgeExpired : RateProgram (Option ConsumedRateLimit) := do
  let now ← Program.now
  let _ ← Program.execute (.purgeExpired now)
  return none

/-- The units of work. -/
inductive RateCall where
  | consumeRateLimit (spec : RateLimitSpec)
  | clearRateLimit (bucket : RateLimitKey)
  | purgeExpired

/-- The limiter as a service on a database. -/
def rateService :
    Service RateStore RateLimitKey RateLimit RateStatement AuthError (Option ConsumedRateLimit)
      RateCall where
  program
    | .consumeRateLimit spec => consumeRateLimit primitives settings spec
    | .clearRateLimit bucket => clearRateLimit bucket
    | .purgeExpired => purgeExpired
  meaning := RateStatement.meaning
  clash _ _ := false
  constraint _ := true

/-- The database of the limiter, with its transactions. -/
abbrev RateDb :=
  Db RateStore RateLimitKey RateLimit RateStatement AuthError (Option ConsumedRateLimit) RateCall

/-- A transaction on it. -/
abbrev RateTxn :=
  Txn RateStore RateLimitKey RateLimit RateStatement AuthError (Option ConsumedRateLimit) RateCall

/-- An event in the log of such a transaction. -/
abbrev RateEvent := Event RateStatement RateLimit

/-- The database as the callers step it. -/
abbrev RateWorld :=
  DbWorld RateStore RateLimitKey RateLimit RateStatement AuthError (Option ConsumedRateLimit)
    RateCall

/-- What a transaction returns that has come to its end. -/
def RateTxn.consumed? (txn : RateTxn) : Option ConsumedRateLimit :=
  match txn.program with
  | .done consumed? => consumed?
  | _ => none

/-- What a committed attempt has counted. -/
def counted? (db : RateDb) (id : Nat) : Option ConsumedRateLimit :=
  db.txns[id]?.bind fun txn => if txn.status = .committed then RateTxn.consumed? txn else none

/-- An attempt that `_consume_rate_limit` has let pass. -/
def granted? (db : RateDb) (id : Nat) : Option ConsumedRateLimit :=
  (counted? db id).filter fun consumed => decide (consumed.count ≤ consumed.maximum)

/-! ## Logins -/

/-- The address of a client, as `_client_key` reads it off the connection. -/
structure ClientKey where
  host : String
  plain : '\x00' ∉ host.toList
  deriving DecidableEq

/-- The attempt of the client address that `login` counts first. -/
def addressSpec (client : ClientKey) : RateLimitSpec where
  scope := "login:ip"
  subject := client.host
  maximum := settings.authLoginIpLimit
  windowSeconds := settings.authLoginIpWindowSeconds

/-- The attempt of the pair of user name and client address that it counts next. -/
def pairSpec (username : String)
    (client : ClientKey) : RateLimitSpec where
  scope := "login:username_ip"
  subject := primitives.canonicalUsername username ++ "\x00" ++ client.host
  maximum := settings.authLoginUsernameIpLimit
  windowSeconds := settings.authLoginUsernameIpWindowSeconds

/-- A call of `login`, with the transactions that it has begun, and when it has verified the
password with what result. -/
structure Login where
  username : String
  client : ClientKey
  address : Nat
  pair : Option Nat := none
  verified : Option (Nat × Bool) := none

/-- The limiter and the logins that use it. -/
structure LoginWorld where
  world : RateWorld
  logins : List Login := []

/-- What a login does next. -/
inductive LoginAct where
  | start (username : String) (client : ClientKey)
  /-- The address has passed its limiter: the login goes on to the next one. -/
  | proceed (i : Nat)
  /-- The pair has passed its limiter: the login verifies the password. -/
  | verify (i : Nat) (valid : Bool)
  | purge
  | tick (elapsed : Nat)
  | onDb (action : DbAction RateCall)

namespace LoginWorld

variable (primitives : Primitives) (settings : AuthSettings) (state : LoginWorld)

/-- A call comes in, and the logins are these from then on. -/
def beginCall (call : RateCall) (logins : List Login) : Option LoginWorld :=
  (state.world.step (rateService primitives settings) (.onDb (.begin call))).map fun world =>
    { world := world, logins := logins }

/-- A login goes on from the limiter of its address to the one of the pair. -/
def proceed (i : Nat) (login : Login) : Option LoginWorld :=
  if login.pair.isNone ∧ (granted? state.world.db login.address).isSome then
    state.beginCall primitives settings
      (.consumeRateLimit (pairSpec primitives settings login.username login.client))
      (state.logins.set i { login with pair := some state.world.db.txns.length })
  else none

/-- A login verifies its password, and clears the bucket of the pair if it is valid. -/
def verify (i : Nat) (login : Login) (valid : Bool) : Option LoginWorld :=
  if login.verified.isNone then
    (login.pair.bind (granted? state.world.db)).bind fun bucket =>
      let logins := state.logins.set i { login with verified := some (state.world.clock, valid) }
      if valid then state.beginCall primitives settings (.clearRateLimit bucket.key) logins
      else some { state with logins := logins }
  else none

/-- A step of the database begins no call. -/
def onDb : DbAction RateCall → Option LoginWorld
  | .begin _ => none
  | action =>
      (state.world.step (rateService primitives settings) (.onDb action)).map fun world =>
        { state with world := world }

/-- One step of a login or of the database. -/
def step : LoginAct → Option LoginWorld
  | .start username client =>
      state.beginCall primitives settings (.consumeRateLimit (addressSpec settings client))
        (state.logins ++
          [{ username := username, client := client, address := state.world.db.txns.length }])
  | .proceed i => state.logins[i]?.bind (state.proceed primitives settings i)
  | .verify i valid =>
      state.logins[i]?.bind fun login => state.verify primitives settings i login valid
  | .purge => state.beginCall primitives settings .purgeExpired state.logins
  | .tick elapsed =>
      some { state with world := { state.world with clock := state.world.clock + elapsed } }
  | .onDb action => state.onDb primitives settings action

end LoginWorld

/-- Logins on a database without counters. -/
def loginSystem (primitives : Primitives) (settings : AuthSettings) :
    System LoginWorld LoginAct where
  init state := ∃ clock, state = { world := ⟨clock, { state := Table.empty }⟩ }
  step := LoginWorld.step primitives settings

/-- An attempt commits within the window that its reading of the clock belongs to. -/
def CommitsInWindow (state : LoginWorld) : LoginAct → Prop
  | .onDb (.commit id) =>
      ∀ txn ∈ state.world.db.txns[id]?, ∀ consumed ∈ RateTxn.consumed? txn,
        state.world.clock < consumed.resetAt
  | _ => True

instance (state : LoginWorld) : DecidablePred (CommitsInWindow state)
  | .onDb (.commit id) => inferInstanceAs (Decidable (∀ txn ∈ state.world.db.txns[id]?, _))
  | .onDb (.begin _) | .onDb (.clock _ _) | .onDb (.snapshot _) | .onDb (.perform _)
  | .onDb (.check _) | .onDb (.abort _) | .start _ _ | .proceed _ | .verify _ _ | .purge
  | .tick _ => isTrue trivial

end OpsComposer.RateLimits
