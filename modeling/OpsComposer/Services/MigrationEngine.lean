import Mathlib.Data.List.Dedup
import Mathlib.Data.List.Sort
import Mathlib.Data.String.Basic
import OpsComposer.Foundations.DependencyOrder
import OpsComposer.Foundations.Table

/-!
# The migration engine

`db/migration_engine.py`.  A database is its schema, which is all that the SQL of a
migration reads and changes, and the table `schema_migrations`, which only the
engine names.  What the server makes of the SQL of a migration and the hex digest of
SHA-256 are parameters.

`up` is one transaction: it returns the database that is committed, which is the one
before it if anything raises.
-/

set_option autoImplicit false

namespace OpsComposer.Services

open Foundations

/-- `sorted(items)`. -/
def sortedIds (items : List String) : List String := items.insertionSort (· ≤ ·)

/-- A migration with what it depends on. -/
structure Migration where
  migrationId : String
  dependencies : List String
  upSql : String
  deriving DecidableEq

/-- `f"{self.migration_id}\n{','.join(self.dependencies)}\n{self.up_sql}"`. -/
def Migration.payload (migration : Migration) : String :=
  migration.migrationId ++ "\n" ++ ",".intercalate migration.dependencies ++ "\n" ++
    migration.upSql

/-- The checksum of a migration. -/
def Migration.checksum (hexdigest : ByteArray → String) (migration : Migration) : String :=
  hexdigest migration.payload.toUTF8

/-- What the engine raises. -/
inductive MigrationError where
  | duplicateId
  | missingDependencies (migrationId : String) (missing : List String)
  | cycle (migrationId : String)
  | notInitialized
  | unknownMigrations (unknown : List String)
  | checksumMismatch (migrationId : String)
  /-- `RecursionError`, if a visit went deeper than there are migrations. -/
  | recursion
  /-- What the server raises. -/
  | database
  deriving DecidableEq

namespace MigrationEngine

/-! ## Ordering -/

section Ordering

variable (migrations : List Migration)

/-- The keys of `by_id`. -/
def ids : List String := (migrations.map Migration.migrationId).dedup

/-- `by_id.get(migration_id)`: of several migrations with one id the last one. -/
def byId (migrationId : String) : Option Migration :=
  migrations.reverse.find? fun migration => migration.migrationId = migrationId

/-- `set(migration.dependencies) - by_id.keys()`, in order. -/
def missingOf (migration : Migration) : List String :=
  sortedIds (migration.dependencies.dedup.filter fun dependency => dependency ∉ ids migrations)

/-- `sorted(by_id[migration_id].dependencies)`. -/
def dependenciesOf (migrationId : String) : List String :=
  match byId migrations migrationId with
  | some migration => sortedIds migration.dependencies
  | none => []

/-- The function `visit` of the source is that of `Dependencies`: `visited` is what has been
appended to `ordered`. -/
def orderedMigrations : Except MigrationError (List Migration) :=
  if (ids migrations).length ≠ migrations.length then .error .duplicateId
  else
    match migrations.find? fun migration => missingOf migrations migration ≠ [] with
    | some migration =>
        .error (.missingDependencies migration.migrationId (missingOf migrations migration))
    | none =>
        match Dependencies.order (dependenciesOf migrations) (sortedIds (ids migrations)) with
        | .error (.cycle migrationId) => .error (.cycle migrationId)
        | .error .exhausted => .error .recursion
        | .ok ordered => .ok (ordered.filterMap (byId migrations))

end Ordering

/-! ## The database -/

/-- A row of `schema_migrations`. -/
structure HistoryRow where
  migrationId : String
  checksum : String
  appliedAt : Nat
  deriving DecidableEq

/-- `schema_migrations` need not be there. -/
structure Database (σ : Type) where
  schema : σ
  history : Option (Table HistoryRow.migrationId)

section Runner

variable {σ : Type} (hexdigest : ByteArray → String) (run : String → σ → Option σ)
  (migrations : List Migration)

/-- `CREATE TABLE IF NOT EXISTS schema_migrations`. -/
def Database.ensureTracking (db : Database σ) : Database σ :=
  { db with history := some (db.history.getD Table.empty) }

/-- `_applied`, the ids and checksums. -/
def Database.applied (db : Database σ) : List HistoryRow :=
  match db.history with
  | none => []
  | some history => history.rows.insertionSort fun a b => a.migrationId ≤ b.migrationId

/-- The migrations that are recorded, in their order. -/
def Database.appliedIds (db : Database σ) : List String := db.applied.map HistoryRow.migrationId

/-- The checksum of an applied migration is that of the known one. -/
def Mismatch (row : HistoryRow) : Prop :=
  (byId migrations row.migrationId).map (Migration.checksum hexdigest) ≠ some row.checksum

instance (row : HistoryRow) : Decidable (Mismatch hexdigest migrations row) :=
  inferInstanceAs (Decidable (_ ≠ _))

/-- `validate_history`: what it raises. -/
def validateHistory (db : Database σ) : Option MigrationError :=
  match db.history with
  | none => some .notInitialized
  | some _ =>
      let unknown := db.appliedIds.filter fun migrationId => migrationId ∉ ids migrations
      if unknown ≠ [] then some (.unknownMigrations (sortedIds unknown))
      else
        (db.applied.find? fun row => Mismatch hexdigest migrations row).map fun row =>
          .checksumMismatch row.migrationId

/-- The migrations that the loop of `up` does not pass over. -/
def pending (applied : List String) : List Migration :=
  migrations.filter fun migration => migration.migrationId ∉ applied

/-- `INSERT INTO schema_migrations`. -/
def Database.recordMigration (db : Database σ) (migration : Migration) (now : Nat) :
    Option (Database σ) :=
  db.history.bind fun history =>
    (history.insert? ⟨migration.migrationId, migration.checksum hexdigest, now⟩).map fun history =>
      { db with history := some history }

/-- The SQL of a migration. -/
def Database.execute (db : Database σ) (migration : Migration) : Option (Database σ) :=
  (run migration.upSql db.schema).map fun schema => { db with schema := schema }

/-- One turn of the loop. -/
def applyMigration (now : Nat) (db : Database σ) (migration : Migration) : Option (Database σ) :=
  (db.execute run migration).bind fun db => db.recordMigration hexdigest migration now

/-- `up`, with the time at which its transaction began: what it returns or raises, and the
database that is committed. -/
def up (now : Nat) (db : Database σ) : Except MigrationError (List String) × Database σ :=
  let tracked := db.ensureTracking
  match validateHistory hexdigest migrations tracked with
  | some error => (.error error, db)
  | none =>
      let todo := pending migrations tracked.appliedIds
      match todo.foldlM (applyMigration hexdigest run now) tracked with
      | none => (.error .database, db)
      | some upgraded => (.ok (todo.map Migration.migrationId), upgraded)

end Runner

end MigrationEngine

end OpsComposer.Services
