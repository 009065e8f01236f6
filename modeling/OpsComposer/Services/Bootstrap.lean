import OpsComposer.AuditTrail.Events
import OpsComposer.Services.Auth
import OpsComposer.Services.RunSpecs

/-!
# Bootstrapping

The unit of work of `AuthService.bootstrap` with its event in the audit trail: it counts the
users, adds the first owner and appends the event, in statements of their own.  Since the
singleton key has been dropped, only the primary key and the index on canonical names keep two
users apart; a trigger keeps users from being deleted.

Beside bootstraps, any other units of work on these two tables run.  The constraint on active
owners, which may refuse a commit but never an insert, is left out.
-/

set_option autoImplicit false

namespace OpsComposer.Bootstrap

open Domain Foundations Services
open AuditTrail (AuditEvent)
open RunSpecs (uuidText)

/-! ## Rows -/

/-- What a row is found by. -/
inductive BootstrapKey where
  | user (userId : Uuid)
  | event (auditEventId : Nat)
  deriving DecidableEq

/-- A row of one of the two tables. -/
inductive BootstrapRow where
  | user (row : User)
  | event (row : AuditEvent)

namespace BootstrapRow

/-- The key of a row. -/
def key : BootstrapRow → BootstrapKey
  | .user row => .user row.userId
  | .event row => .event row.auditEventId

/-- The rows of `users`. -/
def users : RowKind BootstrapRow User where
  wrap := .user
  unwrap
    | .user row => some row
    | .event _ => none

/-- The rows of `audit_events`. -/
def events : RowKind BootstrapRow AuditEvent where
  wrap := .event
  unwrap
    | .event row => some row
    | .user _ => none

/-- `uq_users_username_canonical`. -/
def clash (lower : String → String) : BootstrapRow → BootstrapRow → Bool
  | .user row, .user other => decide (lower row.username = lower other.username)
  | _, _ => false

end BootstrapRow

/-- The two tables that a bootstrap reads and writes. -/
abbrev BootstrapStore := Table BootstrapRow.key

/-! ## Statements -/

/-- The statements of a bootstrap. -/
inductive BootstrapStatement where
  | countUsers
  /-- The insert of `add_admin` and of `add_user`. -/
  | addUser (user : User)
  /-- The insert of `PostgresAuditRepository.append`. -/
  | append (event : AuditEvent)
  | read (query : BootstrapStore → List BootstrapRow)
  | updateUsers (condition : BootstrapStore → User → Bool) (set : BootstrapStore → User → User)
      (keeps : ∀ store user, (set store user).userId = user.userId)
  | purge (condition : BootstrapStore → AuditEvent → Bool)

namespace BootstrapStatement

/-- What a statement does to the tables, as they are when it starts. -/
def meaning (statement : BootstrapStatement) (store : BootstrapStore) :
    Command BootstrapStore BootstrapKey BootstrapRow :=
  match statement with
  | .countUsers => .select (store.rows.filter fun row => (BootstrapRow.users.unwrap row).isSome)
  | .addUser user => .insert (.user user) false
  | .append event => .insert (.event event) false
  | .read query => .select (query store)
  | .updateUsers condition set keeps =>
      .set (BootstrapRow.users.meets (condition store)) (BootstrapRow.users.map (set store))
        (BootstrapRow.users.map_keeps fun user => congrArg BootstrapKey.user (keeps store user))
  | .purge condition => .delete (BootstrapRow.events.meets (condition store))

/-- What a statement has written, by the rows that it returns. -/
def effects : BootstrapStatement → List BootstrapRow → List (Write BootstrapKey BootstrapRow)
  | .countUsers, _ => []
  | .addUser _, rows => rows.map .put
  | .append _, rows => rows.map .put
  | .read _, _ => []
  | .updateUsers _ _ _, rows => rows.map .put
  | .purge _, rows => rows.map fun row => .erase row.key

/-- The statement that a user, by its identifier, or an event was added by. -/
def Adds : BootstrapStatement → BootstrapRow → Prop
  | .addUser added, .user user => added.userId = user.userId
  | .append added, .event event => added = event
  | _, _ => False

end BootstrapStatement

/-! ## Units of work -/

/-- A unit of work on the two tables. -/
abbrev BootstrapProgram := Program BootstrapStatement BootstrapRow AuthError (Option User)

/-- The identity and the credential that `bootstrap` adds. -/
def firstOwner (userId : Uuid) (username passwordHash : String) (now : Nat) : User :=
  { AuthService.newUser userId username .active .owner true now with
    passwordHash := some passwordHash
    passwordUpdatedAt := some now
    activatedAt := some now }

/-- The event that `bootstrap` appends. -/
def bootstrapped (userId : Uuid) (auditEventId occurredAt : Nat) : AuditEvent where
  auditEventId := auditEventId
  occurredAt := occurredAt
  source := .cli
  eventAction := .adminBootstrapped
  eventOutcome := .succeeded
  actorUserId := some userId
  resourceType := some "user"
  resourceId := some (String.ofList ((uuidText userId).map Char.ofNat))

/-- `bootstrap`; the identity column draws the identifier of the event. -/
def bootstrap (primitives : Primitives) (userId : Uuid) (auditEventId salt : Nat)
    (username : String) (password : Text) : BootstrapProgram := do
  let normalized := primitives.canonicalUsername username
  let _ ← Program.ofAnswer (AuthService.validateUsername normalized)
  let _ ← Program.ofAnswer (AuthService.validatePassword password)
  let passwordHash ← Program.ofAnswer (AuthService.hashPassword primitives salt password)
  let now ← Program.now
  let occurredAt ← Program.now
  let users ← Program.execute .countUsers
  let _ ← Program.raiseIf .adminAlreadyExists (decide (users.length ≠ 0))
  let rows ← Program.execute (.addUser (firstOwner userId normalized passwordHash now))
  let created ← Program.orFail .undeclared (rows.head?.bind BootstrapRow.users.unwrap)
  let appended ← Program.execute (.append (bootstrapped userId auditEventId occurredAt))
  let _ ← Program.orFail .undeclared appended.head?
  return some created

/-- A unit of work, with its arguments and what is drawn for it. -/
inductive BootstrapCall where
  | bootstrap (userId : Uuid) (auditEventId salt : Nat) (username : String) (password : Text)
  /-- Any other unit of work. -/
  | other (program : BootstrapProgram)

/-- The call is a bootstrap. -/
def BootstrapCall.isBootstrap : BootstrapCall → Bool
  | .bootstrap _ _ _ _ _ => true
  | .other _ => false

/-! ## The system -/

/-- Bootstraps as a service on a database. -/
def bootstrapService (primitives : Primitives) :
    Service BootstrapStore BootstrapKey BootstrapRow BootstrapStatement AuthError (Option User)
      BootstrapCall where
  program
    | .bootstrap userId auditEventId salt username password =>
        bootstrap primitives userId auditEventId salt username password
    | .other program => program
  meaning := BootstrapStatement.meaning
  clash := BootstrapRow.clash primitives.lower
  constraint _ := true

/-- The database of the bootstraps, with its transactions. -/
abbrev BootstrapDb :=
  Db BootstrapStore BootstrapKey BootstrapRow BootstrapStatement AuthError (Option User)
    BootstrapCall

/-- A transaction on it. -/
abbrev BootstrapTxn :=
  Txn BootstrapStore BootstrapKey BootstrapRow BootstrapStatement AuthError (Option User)
    BootstrapCall

/-- An event in the log of such a transaction. -/
abbrev BootstrapEvent := Event BootstrapStatement BootstrapRow

/-- The database as the processes step it. -/
abbrev BootstrapWorld :=
  DbWorld BootstrapStore BootstrapKey BootstrapRow BootstrapStatement AuthError (Option User)
    BootstrapCall

/-- A freshly migrated database. -/
def bootstrapSystem (primitives : Primitives) : System BootstrapWorld (DbAct BootstrapCall) :=
  (bootstrapService primitives).system (· = Table.empty)

/-- The transaction at a position is a bootstrap. -/
def bootstrapAt (db : BootstrapDb) (id : Nat) : Bool :=
  db.txns[id]?.any fun txn => txn.call.isBootstrap

/-- How many commits the counts of users in a log have seen. -/
def counted (log : List BootstrapEvent) : List Nat :=
  log.filterMap fun
    | .ran .countUsers _ seen => some seen
    | _ => none

/-- When a bootstrap commits, no bootstrap has committed since it has counted the users. -/
def Undisturbed (world : BootstrapWorld) : DbAct BootstrapCall → Prop
  | .onDb (.commit id) =>
      ∀ txn ∈ world.db.txns[id]?, txn.call.isBootstrap = true → ∀ seen ∈ counted txn.log,
        ∀ other ∈ world.db.history.drop seen, bootstrapAt world.db other = false
  | _ => True

instance (world : BootstrapWorld) : DecidablePred (Undisturbed world)
  | .onDb (.commit id) => inferInstanceAs (Decidable (∀ txn ∈ world.db.txns[id]?, _))
  | .onDb (.begin _) | .onDb (.clock _ _) | .onDb (.snapshot _) | .onDb (.perform _)
  | .onDb (.check _) | .onDb (.abort _) | .tick _ => isTrue trivial

end OpsComposer.Bootstrap
