import OpsComposer.Services.AuthPrograms

/-!
# Accounts under concurrent transactions

The authentication service over a database at READ COMMITTED: any number of calls
are in flight, each somewhere in its unit of work, and the environment decides which
of them goes on next, which waits and which fails.

A request with a session is resolved first, by a query of its own, and then served
with the principal it was resolved to, however much later.  A restart may change the
settings; calls that are in flight keep the settings of the process that serves them.
Identifiers and secrets are drawn at random and are assumed not to repeat.
-/

set_option autoImplicit false

namespace OpsComposer.Domain

deriving instance DecidableEq for SessionPrincipal

end OpsComposer.Domain

namespace OpsComposer.Accounts

open Domain Foundations Repositories Services

/-- The database service of authentication. -/
def authService (primitives : Primitives) :
    Service AuthStore AuthKey AuthRow AuthStatement AuthError Unit AuthCall where
  program := AuthCall.program primitives
  meaning := AuthStatement.meaning primitives.lower
  clash := AuthRow.clash primitives.lower
  constraint store := decide (AuthRepository.countActiveOwners store ≠ 0)

/-- The database of the accounts, with its transactions. -/
abbrev AuthDb := Db AuthStore AuthKey AuthRow AuthStatement AuthError Unit AuthCall

/-- A transaction of the accounts. -/
abbrev AuthTxn := Txn AuthStore AuthKey AuthRow AuthStatement AuthError Unit AuthCall

/-- An event in the log of such a transaction. -/
abbrev AuthEvent := Event AuthStatement AuthRow

/-- Two calls draw nothing in common. -/
def Apart (fresh other : Fresh) : Prop :=
  fresh.sessionId ≠ other.sessionId ∧ fresh.challengeId ≠ other.challengeId ∧
    fresh.totpSecret ≠ other.totpSecret ∧
    ∀ code ∈ fresh.recoveryCodes, ∀ code' ∈ other.recoveryCodes, code.1 ≠ code'.1

instance (fresh other : Fresh) : Decidable (Apart fresh other) := by
  unfold Apart
  infer_instance

/-- The database and the requests that have been resolved. -/
structure AccountWorld where
  clock : Nat
  settings : AuthSettings
  db : AuthDb
  /-- What the requests so far were resolved to. -/
  requests : List SessionPrincipal

/-- What can happen next: to the clock, to the settings, to a request or a transaction. -/
inductive AccountAction where
  | tick (elapsed : Nat)
  | restart (settings : AuthSettings)
  | resolve (sessionToken : String)
  | begin (request : AuthRequest) (fresh : Fresh)
  | clock (id : Nat)
  | snapshot (id : Nat)
  | perform (id : Nat)
  | check (id : Nat)
  | commit (id : Nat)
  | abort (id : Nat)

namespace AccountWorld

/-- A freshly migrated database. -/
def start (settings : AuthSettings) : AccountWorld where
  clock := 0
  settings := settings
  db := { state := .empty }
  requests := []

/-- A call may begin: its principal is the answer to some request, and what it draws
has not been drawn before. -/
def admits (world : AccountWorld) (request : AuthRequest) (fresh : Fresh) : Prop :=
  (∀ principal ∈ request.principal?, principal ∈ world.requests) ∧
    ∀ txn ∈ world.db.txns, Apart fresh txn.call.fresh

instance (world : AccountWorld) (request : AuthRequest) (fresh : Fresh) :
    Decidable (world.admits request fresh) := by
  unfold admits
  infer_instance

variable (primitives : Primitives) (world : AccountWorld)

/-- A step of the database. -/
def onDb (action : DbAction AuthCall) : Option AccountWorld :=
  (world.db.step (authService primitives) action).map fun db => { world with db := db }

/-- One step of the accounts, if it can be made. -/
def step : AccountAction → Option AccountWorld
  | .tick elapsed => some { world with clock := world.clock + elapsed }
  | .restart settings => some { world with settings := settings }
  | .resolve sessionToken =>
      match AuthService.resolve primitives world.settings world.db.state sessionToken
        world.clock with
      | .error _ => none
      | .ok principal => some { world with requests := world.requests ++ [principal] }
  | .begin request fresh =>
      if world.admits request fresh then
        world.onDb primitives
          (.begin { request := request, settings := world.settings, fresh := fresh })
      else none
  | .clock id => world.onDb primitives (.clock id world.clock)
  | .snapshot id => world.onDb primitives (.snapshot id)
  | .perform id => world.onDb primitives (.perform id)
  | .check id => world.onDb primitives (.check id)
  | .commit id => world.onDb primitives (.commit id)
  | .abort id => world.onDb primitives (.abort id)

end AccountWorld

/-- Accounts as a transition system. -/
def accountSystem (primitives : Primitives) : System AccountWorld AccountAction where
  init world := ∃ settings, world = .start settings
  step := AccountWorld.step primitives

/-! ## What a step does -/

/-- A call that the world admits, with the settings of the time. -/
def AccountWorld.Admits (world : AccountWorld) (call : AuthCall) : Prop :=
  world.admits call.request call.fresh ∧ call.settings = world.settings

/-- What a step of the system does: a step of the database, or nothing to it. -/
inductive AccountEffect (primitives : Primitives) (world : AccountWorld) : AccountWorld → Prop where
  | idle {world' : AccountWorld} (db : world'.db = world.db) (clock : world.clock ≤ world'.clock) :
      AccountEffect primitives world world'
  | onDb {db : AuthDb}
      (effect : Db.Effect (authService primitives) world.Admits world.clock world.db db) :
      AccountEffect primitives world { world with db := db }

variable {world world' : AccountWorld} {primitives : Primitives}

theorem effect_of_onDb {action : DbAction AuthCall}
    (step : world.onDb primitives action = some world')
    (within : action.Within world.Admits world.clock) : AccountEffect primitives world world' := by
  obtain ⟨db, stepped, rfl⟩ := Option.map_eq_some_iff.mp step
  exact .onDb (Db.effect_of_step within stepped)

/-- **Inversion.** -/
theorem effect_of_step
    {action : AccountAction} (step : world.step primitives action = some world') :
    AccountEffect primitives world world' := by
  cases action with
  | tick elapsed => exact Option.some.inj step ▸ .idle rfl (Nat.le_add_right ..)
  | restart settings => exact Option.some.inj step ▸ .idle rfl le_rfl
  | resolve sessionToken =>
      simp only [AccountWorld.step] at step
      split at step
      · cases step
      · exact Option.some.inj step ▸ .idle rfl le_rfl
  | begin request fresh =>
      simp only [AccountWorld.step] at step
      split at step
      · rename_i admitted
        exact effect_of_onDb step ⟨admitted, rfl⟩
      · cases step
  | clock id => exact effect_of_onDb step rfl
  | snapshot id | perform id | check id | commit id | abort id => exact effect_of_onDb step trivial

/-- A commit makes what the transaction saw the committed state. -/
theorem state_of_commit {id : Nat} {txn : AuthTxn} (found : world.db.txns[id]? = some txn)
    (step : world.step primitives (.commit id) = some world') :
    txn.live = true ∧ world'.db.state = txn.view world.db.state := by
  obtain ⟨db, stepped, rfl⟩ := Option.map_eq_some_iff.mp step
  obtain ⟨txn', found', rest⟩ := Option.bind_eq_some_iff.mp stepped
  obtain rfl : txn' = txn := Option.some.inj (found'.symm.trans found)
  simp only [Db.commit] at rest
  split at rest
  · split at rest
    · rename_i ready
      refine ⟨?_, Option.some.inj rest ▸ rfl⟩
      rcases ready with checked | ⟨running, -⟩
      · simp [Txn.live, checked]
      · simp [Txn.live, running]
    · cases rest
  · cases rest

/-- A property of the database that its steps keep holds in every reachable world. -/
theorem inductive_onDb {inv : AuthDb → Prop}
    (initial : inv { state := .empty })
    (kept : ∀ (world : AccountWorld) (db : AuthDb), inv world.db →
      Db.Effect (authService primitives) world.Admits world.clock world.db db → inv db) :
    (accountSystem primitives).Inductive fun world => inv world.db where
  initial := by
    rintro world ⟨settings, rfl⟩
    exact initial
  preserved world action world' holds step := by
    cases effect_of_step step with
    | idle same _ => exact same ▸ holds
    | onDb effect => exact kept world _ holds effect

theorem history_of_onDb
    {action : DbAction AuthCall} (step : world.onDb primitives action = some world') :
    world'.db.history = world.db.history ∨
      ∃ id, action = .commit id ∧ world'.db.history = world.db.history ++ [id] := by
  obtain ⟨db, stepped, rfl⟩ := Option.map_eq_some_iff.mp step
  exact Db.history_of_step stepped

/-- A step that adds to the history is the commit of the transaction that it adds. -/
theorem commit_of_history
    {action : AccountAction} (step : world.step primitives action = some world') {id : Nat}
    (grown : world'.db.history = world.db.history ++ [id]) : action = .commit id := by
  have still : world'.db.history ≠ world.db.history := by simp [grown]
  have onDb : ∀ {moved : DbAction AuthCall}, world.onDb primitives moved = some world' →
      moved = .commit id := by
    intro moved stepped
    rcases history_of_onDb stepped with same | ⟨id', rfl, grown'⟩
    · exact absurd same still
    · rw [grown, List.append_cancel_left_eq, List.singleton_inj] at grown'
      rw [grown']
  cases action with
  | tick elapsed | restart settings => exact absurd (Option.some.inj step ▸ rfl) still
  | resolve sessionToken =>
      simp only [AccountWorld.step] at step
      split at step
      · cases step
      · exact absurd (Option.some.inj step ▸ rfl) still
  | begin request fresh =>
      simp only [AccountWorld.step] at step
      split at step
      · cases onDb step
      · cases step
  | clock id' | snapshot id' | perform id' | check id' | abort id' => cases onDb step
  | commit id' => cases onDb step; rfl

/-- A property of the database that holds in every run whose commits meet a condition:
its steps keep it, in worlds that can be reached. -/
theorem of_restricted_commits
    {ok : AccountWorld → AccountAction → Prop} (inv : AuthDb → Prop)
    (initial : inv { state := .empty })
    (kept : ∀ (world : AccountWorld) (db : AuthDb), (accountSystem primitives).Reachable world →
      inv world.db → Db.Effect (authService primitives) world.Admits world.clock world.db db →
      (∀ id, db.history = world.db.history ++ [id] → ok world (.commit id)) → inv db)
    {world : AccountWorld} (reachable : ((accountSystem primitives).restrict ok).Reachable world) :
    inv world.db := by
  have strong : ((accountSystem primitives).restrict ok).Inductive
      fun world => (accountSystem primitives).Reachable world ∧ inv world.db := by
    refine ((System.Inductive.reachable _).restrict ok).strengthen ?_ ?_
    · rintro world ⟨settings, rfl⟩
      exact initial
    · intro world action world' reached holds step
      obtain ⟨allowed, step⟩ := System.restrict_step.mp step
      have named : ∀ id, world'.db.history = world.db.history ++ [id] → action = .commit id :=
        fun _ => commit_of_history step
      cases effect_of_step step with
      | idle same _ => exact same ▸ holds
      | onDb effect =>
          exact kept world _ reached holds effect fun id grown => named id grown ▸ allowed
  exact (strong.of_reachable reachable).2

/-! ## Concrete primitives -/

/-- Three bytes for each character. -/
def sealChars (text : List Char) : List UInt8 :=
  text.flatMap fun c =>
    [UInt8.ofNat (c.toNat / 65536), UInt8.ofNat (c.toNat / 256), UInt8.ofNat c.toNat]

/-- The characters of three bytes each, as `sealChars` writes them. -/
def openChars : List UInt8 → List Char
  | a :: b :: c :: rest =>
      Char.ofNat (a.toNat * 65536 + b.toNat * 256 + c.toNat) :: openChars rest
  | _ => []

/-- Functions that keep apart what runs have to keep apart; an authenticator shows its
secret. -/
def plain : Primitives where
  canonicalUsername := id
  lower := id
  quote := id
  hashToken := id
  hashPassword _ password := some (String.ofList (password.map Char.ofNat))
  verifyPassword stored password :=
    some { valid := decide (stored.map text = some password), needsRehash := false }
  totpCode secret _ := some secret
  hashRecoveryCode code := some (String.ofList (code.map Char.ofNat))
  hmacSubject _ scope subject := scope ++ subject
  encryptTotp _ _ secret := (sealChars secret.toList, 1)
  decryptTotp _ envelope _ := some (String.ofList (openChars envelope))

/-- What a call draws, made from a number and two words. -/
def drawn (id : Uuid) (token totpSecret : String) : Fresh where
  sessionId := id
  sessionToken := token
  csrfToken := token
  challengeId := id
  challengeToken := token
  totpSecret := totpSecret

/-- Perform the next steps of a transaction, a reading of the clock or a statement
each. -/
def performs (id : Nat) : List Bool → List AccountAction
  | [] => []
  | true :: steps => .clock id :: performs id steps
  | false :: steps => .perform id :: performs id steps

end OpsComposer.Accounts
