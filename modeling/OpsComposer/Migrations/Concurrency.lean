import OpsComposer.Foundations.Transition
import OpsComposer.Migrations.Upgrades

/-!
# Upgrades side by side

Any number of processes call `up` on one database, each statement of each a step of
its own.  A statement sees what is committed and what its own transaction has
changed.  `CREATE TABLE IF NOT EXISTS` waits for a transaction that is creating the
table, and `pg_advisory_xact_lock` for one that has the lock; a transaction that
raises, or whose process dies, is rolled back.

* `Coordinated` — who is past the lock is alone there, and has seen the database as
  it is;
* `serial_reachable` — so the commits are upgrades one after the other (`Serial`);
* `Serial.once` — and no migration is applied twice.
-/

set_option autoImplicit false

namespace OpsComposer.Services.MigrationEngine

open Foundations

/-- The statement that a process is about to execute. -/
inductive Phase where
  /-- `CREATE TABLE IF NOT EXISTS schema_migrations`. -/
  | begun
  /-- `SELECT pg_advisory_xact_lock(…)`. -/
  | tracked
  /-- Those of `validate_history`. -/
  | locked
  /-- Those of `_applied`. -/
  | validated
  /-- The SQL of the first of the migrations that are left, or `COMMIT`. -/
  | looping (todo rest : List Migration)
  /-- `INSERT INTO schema_migrations`. -/
  | executed (todo : List Migration) (migration : Migration) (rest : List Migration)
  | ended
  deriving DecidableEq

/-- A process that has called `up`. -/
structure Process (σ : Type) where
  migrations : List Migration
  /-- The time at which its transaction began. -/
  now : Nat
  phase : Phase := .begun
  /-- Its transaction has created `schema_migrations`. -/
  creates : Bool := false
  /-- The database as its transaction has changed it. -/
  work : Option (Database σ) := none

namespace Process

variable {σ : Type}

/-- The transaction has the advisory lock. -/
def holds (process : Process σ) : Bool :=
  match process.phase with
  | .begun | .tracked | .ended => false
  | .locked | .validated | .looping _ _ | .executed _ _ _ => true

/-- The transaction has executed a statement. -/
def active (process : Process σ) : Bool :=
  match process.phase with
  | .begun | .ended => false
  | _ => true

/-- What a statement of the process sees. -/
def view (process : Process σ) (db : Database σ) : Database σ :=
  match process.work with
  | some work => work
  | none => if process.creates then db.ensureTracking else db

/-- The transaction has been committed or rolled back. -/
def finish (process : Process σ) : Process σ :=
  { process with phase := .ended, creates := false, work := none }

variable (hexdigest : ByteArray → String) (run : String → σ → Option σ)

/-- The next statement, among the transactions of the others; `none` while it has to wait. -/
def next (process : Process σ) (db : Database σ) (others : List (Process σ)) :
    Option (Process σ) :=
  match process.phase with
  | .begun =>
      if db.history.isSome then some { process with phase := .tracked }
      else if ∃ other ∈ others, other.creates then none
      else some { process with phase := .tracked, creates := true }
  | .tracked =>
      if ∃ other ∈ others, other.holds then none else some { process with phase := .locked }
  | .locked =>
      match validateHistory hexdigest process.migrations (process.view db) with
      | none => some { process with phase := .validated }
      | some _ => some process.finish
  | .validated =>
      let todo := pending process.migrations (process.view db).appliedIds
      some { process with phase := .looping todo todo }
  | .looping _ [] => none
  | .looping todo (migration :: rest) =>
      match (process.view db).execute run migration with
      | some work => some { process with work := some work, phase := .executed todo migration rest }
      | none => some process.finish
  | .executed todo migration rest =>
      match (process.view db).recordMigration hexdigest migration process.now with
      | some work => some { process with work := some work, phase := .looping todo rest }
      | none => some process.finish
  | .ended => none

end Process

/-- What a transaction that has been committed has applied. -/
structure Commit where
  migrations : List Migration
  now : Nat
  applied : List String

/-- The database and the processes that migrate it. -/
structure MigrationWorld (σ : Type) where
  db : Database σ
  processes : List (Process σ) := []
  /-- The commits so far, in order. -/
  commits : List Commit := []

/-- What a process does next. -/
inductive MigrationAction where
  | start (migrations : List Migration) (now : Nat)
  | statement (id : Nat)
  | commit (id : Nat)
  | abort (id : Nat)

namespace MigrationWorld

variable {σ : Type} (hexdigest : ByteArray → String) (run : String → σ → Option σ)

/-- The processes but one. -/
def others (world : MigrationWorld σ) (id : Nat) : List (Process σ) := world.processes.eraseIdx id

/-- One step of a process, if it can be made. -/
def step (world : MigrationWorld σ) : MigrationAction → Option (MigrationWorld σ)
  | .start migrations now =>
      match orderedMigrations migrations with
      | .ok ordered =>
          some { world with
            processes := world.processes ++ [{ migrations := ordered, now := now }] }
      | .error _ => none
  | .statement id =>
      world.processes[id]?.bind fun process =>
        (process.next hexdigest run world.db (world.others id)).map fun process =>
          { world with processes := world.processes.set id process }
  | .commit id =>
      world.processes[id]?.bind fun process =>
        match process.phase with
        | .looping todo [] =>
            some
              { db := process.view world.db
                processes := world.processes.set id process.finish
                commits := world.commits ++
                  [⟨process.migrations, process.now, todo.map Migration.migrationId⟩] }
        | _ => none
  | .abort id =>
      world.processes[id]?.bind fun process =>
        if process.phase = .ended then none
        else some { world with processes := world.processes.set id process.finish }

/-- The ids of the migrations that have been applied, in order. -/
def applied (world : MigrationWorld σ) : List String := world.commits.flatMap Commit.applied

end MigrationWorld

variable {σ : Type} {hexdigest : ByteArray → String} {run : String → σ → Option σ}

/-! ## One process -/

section Proceeds

variable {db : Database σ} {process process' : Process σ} {others : List (Process σ)}

/-- The transaction has gone through some of the migrations that it is to apply. -/
def HasApplied (hexdigest : ByteArray → String) (run : String → σ → Option σ) (db : Database σ)
    (process : Process σ) (todo rest : List Migration) (work : Database σ) : Prop :=
  validateHistory hexdigest process.migrations db.ensureTracking = none ∧
    todo = pending process.migrations db.appliedIds ∧
      ∃ done, todo = done ++ rest ∧
        done.foldlM (applyMigration hexdigest run process.now) db.ensureTracking = some work

/-- How far a process has come, of which the committed database is as it has seen it. -/
structure Proceeds (hexdigest : ByteArray → String) (run : String → σ → Option σ)
    (db : Database σ) (process : Process σ) : Prop where
  distinct : DistinctIds process.migrations
  /-- The table is there once the transaction has executed a statement. -/
  isThere : process.active → db.history.isSome ∨ process.creates
  creates : process.creates → process.active
  phase : match process.phase with
    | .begun | .tracked | .locked | .ended => process.work = none
    | .validated => process.work = none ∧
        validateHistory hexdigest process.migrations db.ensureTracking = none
    | .looping todo rest => HasApplied hexdigest run db process todo rest (process.view db)
    | .executed todo migration rest => ∃ work,
        HasApplied hexdigest run db process todo (migration :: rest) work ∧
          work.execute run migration = some (process.view db)

theorem Proceeds.finish (proceeds : Proceeds hexdigest run db process) :
    Proceeds hexdigest run db process.finish :=
  ⟨proceeds.distinct, nofun, nofun, rfl⟩

/-- A transaction that has changed nothing but the table sees the database with the table. -/
theorem Proceeds.view_eq (proceeds : Proceeds hexdigest run db process) (active : process.active)
    (unchanged : process.work = none) : process.view db = db.ensureTracking := by
  rw [Process.view, unchanged]
  by_cases creates : process.creates
  · simp only [creates, if_true]
  · simp only [creates, Bool.false_eq_true, if_false]
    obtain ⟨history, isThere⟩ := Option.isSome_iff_exists.mp
      ((proceeds.isThere active).resolve_right creates)
    exact (ensureTracking_of_some isThere).symm

/-- **One statement.** -/
theorem Proceeds.next (proceeds : Proceeds hexdigest run db process)
    (stepped : process.next hexdigest run db others = some process') :
    Proceeds hexdigest run db process' := by
  have phase := proceeds.phase
  unfold Process.next at stepped
  cases isPhase : process.phase with
  | begun =>
      simp only [isPhase] at stepped phase
      split at stepped
      · rename_i isThere
        obtain rfl := Option.some.inj stepped
        exact ⟨proceeds.distinct, fun _ => .inl isThere, fun _ => rfl, phase⟩
      · split at stepped
        · cases stepped
        · obtain rfl := Option.some.inj stepped
          exact ⟨proceeds.distinct, fun _ => .inr rfl, fun _ => rfl, phase⟩
  | tracked =>
      simp only [isPhase] at stepped phase
      split at stepped
      · cases stepped
      · obtain rfl := Option.some.inj stepped
        exact ⟨proceeds.distinct, fun _ => proceeds.isThere (by simp [Process.active, isPhase]),
          fun _ => rfl, phase⟩
  | locked =>
      simp only [isPhase] at stepped phase
      have active : process.active := by simp [Process.active, isPhase]
      have seen := proceeds.view_eq active phase
      split at stepped
      · rename_i validates
        obtain rfl := Option.some.inj stepped
        exact ⟨proceeds.distinct, fun _ => proceeds.isThere active, fun _ => rfl, phase,
          seen ▸ validates⟩
      · obtain rfl := Option.some.inj stepped
        exact proceeds.finish
  | validated =>
      simp only [isPhase] at stepped phase
      have active : process.active := by simp [Process.active, isPhase]
      have seen := proceeds.view_eq active phase.1
      obtain rfl := Option.some.inj stepped
      refine ⟨proceeds.distinct, fun _ => proceeds.isThere active, fun _ => rfl, phase.2, ?_, [],
        rfl, ?_⟩
      · rw [seen, appliedIds_ensureTracking]
      · exact congrArg some seen.symm
  | looping todo rest =>
      simp only [isPhase] at stepped phase
      have active : process.active := by simp [Process.active, isPhase]
      cases rest with
      | nil => cases stepped
      | cons migration rest =>
          simp only at stepped
          split at stepped
          · rename_i work ran
            obtain rfl := Option.some.inj stepped
            exact ⟨proceeds.distinct, fun _ => proceeds.isThere active, fun _ => rfl,
              process.view db, phase, ran⟩
          · obtain rfl := Option.some.inj stepped
            exact proceeds.finish
  | executed todo migration rest =>
      simp only [isPhase] at stepped phase
      have active : process.active := by simp [Process.active, isPhase]
      obtain ⟨work, ⟨validates, all, done, cut, before⟩, ran⟩ := phase
      split at stepped
      · rename_i after inserted
        obtain rfl := Option.some.inj stepped
        refine ⟨proceeds.distinct, fun _ => proceeds.isThere active, fun _ => rfl, validates, all,
          done ++ [migration], by simp [cut], ?_⟩
        rw [List.foldlM_append, before]
        simp only [List.foldlM_cons, List.foldlM_nil, applyMigration, ran, Option.bind_some,
          inserted, Option.bind_eq_bind, Option.pure_def]
        rfl
      · obtain rfl := Option.some.inj stepped
        exact proceeds.finish
  | ended =>
      simp only [isPhase] at stepped
      cases stepped

/-- **A transaction that can commit has done what `up` does.** -/
theorem Proceeds.up_eq (proceeds : Proceeds hexdigest run db process) {todo : List Migration}
    (isPhase : process.phase = .looping todo []) :
    up hexdigest run process.migrations process.now db =
      (.ok (todo.map Migration.migrationId), process.view db) := by
  have phase := proceeds.phase
  simp only [isPhase] at phase
  obtain ⟨validates, rfl, done, cut, loop⟩ := phase
  rw [List.append_nil] at cut
  subst cut
  unfold up
  simp only [validates, appliedIds_ensureTracking]
  rw [loop]

end Proceeds

/-! ## All processes -/

section World

variable {initial : Database σ} {world world' : MigrationWorld σ} {process process' : Process σ}
  {id : Nat}

theorem mem_others {other : Process σ} :
    other ∈ world.others id ↔ ∃ j, j ≠ id ∧ world.processes[j]? = some other :=
  List.mem_eraseIdx_iff_getElem?

/-- Who has the lock has it alone, and who has created the table is alone with it. -/
structure Coordinated (hexdigest : ByteArray → String) (run : String → σ → Option σ)
    (world : MigrationWorld σ) : Prop where
  proceeds : ∀ process ∈ world.processes, Proceeds hexdigest run world.db process
  fresh : ∀ process ∈ world.processes, process.creates → world.db.history = none
  exclusive : ∀ (i j : Nat) (process other : Process σ), world.processes[i]? = some process →
    world.processes[j]? = some other → process.holds → other.holds → i = j
  creator : ∀ (i j : Nat) (process other : Process σ), world.processes[i]? = some process →
    world.processes[j]? = some other → process.creates → other.active → i = j

/-- A process goes on, and stays apart from the others. -/
theorem Coordinated.set (coordinated : Coordinated hexdigest run world)
    (proceeds : Proceeds hexdigest run world.db process')
    (fresh : process'.creates → world.db.history = none)
    (holds : process'.holds → ∀ other ∈ world.others id, ¬ other.holds)
    (creates : process'.creates → ∀ other ∈ world.others id, ¬ other.active)
    (active : process'.active → ∀ other ∈ world.others id, ¬ other.creates) :
    Coordinated hexdigest run { world with processes := world.processes.set id process' } := by
  have cases_ : ∀ {j : Nat} {other : Process σ}, (world.processes.set id process')[j]? = some other →
      j = id ∧ other = process' ∨ j ≠ id ∧ world.processes[j]? = some other := by
    intro j other found
    rw [List.getElem?_set] at found
    by_cases same : id = j
    · rw [if_pos same] at found
      split at found
      · exact .inl ⟨same.symm, (Option.some.inj found).symm⟩
      · cases found
    · rw [if_neg same] at found
      exact .inr ⟨Ne.symm same, found⟩
  refine ⟨?_, ?_, ?_, ?_⟩
  · intro other member
    rcases List.mem_or_eq_of_mem_set member with old | rfl
    · exact coordinated.proceeds other old
    · exact proceeds
  · intro other member
    rcases List.mem_or_eq_of_mem_set member with old | rfl
    · exact coordinated.fresh other old
    · exact fresh
  · intro i j a b foundA foundB holdsA holdsB
    rcases cases_ foundA with ⟨rfl, rfl⟩ | ⟨otherA, isA⟩
    · rcases cases_ foundB with ⟨rfl, rfl⟩ | ⟨otherB, isB⟩
      · rfl
      · exact absurd holdsB (holds holdsA b (mem_others.mpr ⟨j, otherB, isB⟩))
    · rcases cases_ foundB with ⟨rfl, rfl⟩ | ⟨-, isB⟩
      · exact absurd holdsA (holds holdsB a (mem_others.mpr ⟨i, otherA, isA⟩))
      · exact coordinated.exclusive i j a b isA isB holdsA holdsB
  · intro i j a b foundA foundB createsA activeB
    rcases cases_ foundA with ⟨rfl, rfl⟩ | ⟨otherA, isA⟩
    · rcases cases_ foundB with ⟨rfl, rfl⟩ | ⟨otherB, isB⟩
      · rfl
      · exact absurd activeB (creates createsA b (mem_others.mpr ⟨j, otherB, isB⟩))
    · rcases cases_ foundB with ⟨rfl, rfl⟩ | ⟨-, isB⟩
      · exact absurd createsA (active activeB a (mem_others.mpr ⟨i, otherA, isA⟩))
      · exact coordinated.creator i j a b isA isB createsA activeB

/-- A process that ends is in nobody's way. -/
theorem Coordinated.finish (coordinated : Coordinated hexdigest run world)
    (found : world.processes[id]? = some process) :
    Coordinated hexdigest run { world with processes := world.processes.set id process.finish } :=
  coordinated.set (coordinated.proceeds process (List.mem_of_getElem? found)).finish
    nofun nofun nofun nofun

/-- What a statement changes of the locks of its transaction: it takes one that nobody has. -/
theorem locks_next {db : Database σ} {others : List (Process σ)}
    (stepped : process.next hexdigest run db others = some process') :
    (process'.holds → process.holds ∨ ∀ other ∈ others, ¬ other.holds) ∧
      (process'.creates → process.creates ∨
        db.history.isSome = false ∧ ∀ other ∈ others, ¬ other.creates) ∧
      (process'.active → process.active ∨ db.history.isSome ∨ ∀ other ∈ others, ¬ other.creates) := by
  unfold Process.next at stepped
  cases isPhase : process.phase with
  | begun =>
      simp only [isPhase] at stepped
      split at stepped
      · rename_i isThere
        obtain rfl := Option.some.inj stepped
        exact ⟨nofun, .inl, fun _ => .inr (.inl isThere)⟩
      · rename_i absent
        split at stepped
        · cases stepped
        · rename_i alone
          obtain rfl := Option.some.inj stepped
          have none : ∀ other ∈ others, ¬ other.creates :=
            fun other member creates => alone ⟨other, member, creates⟩
          exact ⟨nofun, fun _ => .inr ⟨by simpa using absent, none⟩, fun _ => .inr (.inr none)⟩
  | tracked =>
      simp only [isPhase] at stepped
      split at stepped
      · cases stepped
      · rename_i alone
        obtain rfl := Option.some.inj stepped
        exact ⟨fun _ => .inr fun other member holds => alone ⟨other, member, holds⟩, .inl,
          fun _ => .inl (by simp [Process.active, isPhase])⟩
  | ended =>
      simp only [isPhase] at stepped
      cases stepped
  | locked | executed todo migration rest =>
      simp only [isPhase] at stepped
      have holds : process.holds := by simp [Process.holds, isPhase]
      have active : process.active := by simp [Process.active, isPhase]
      split at stepped
      · obtain rfl := Option.some.inj stepped
        exact ⟨fun _ => .inl holds, .inl, fun _ => .inl active⟩
      · obtain rfl := Option.some.inj stepped
        exact ⟨nofun, nofun, nofun⟩
  | validated =>
      simp only [isPhase] at stepped
      obtain rfl := Option.some.inj stepped
      exact ⟨fun _ => .inl (by simp [Process.holds, isPhase]), .inl,
        fun _ => .inl (by simp [Process.active, isPhase])⟩
  | looping todo rest =>
      simp only [isPhase] at stepped
      have holds : process.holds := by simp [Process.holds, isPhase]
      have active : process.active := by simp [Process.active, isPhase]
      cases rest with
      | nil => cases stepped
      | cons migration rest =>
          simp only at stepped
          split at stepped
          · obtain rfl := Option.some.inj stepped
            exact ⟨fun _ => .inl holds, .inl, fun _ => .inl active⟩
          · obtain rfl := Option.some.inj stepped
            exact ⟨nofun, nofun, nofun⟩

/-- **One statement of one process.** -/
theorem Coordinated.statement (coordinated : Coordinated hexdigest run world)
    (found : world.processes[id]? = some process)
    (stepped : process.next hexdigest run world.db (world.others id) = some process') :
    Coordinated hexdigest run { world with processes := world.processes.set id process' } := by
  have proceeds := coordinated.proceeds process (List.mem_of_getElem? found)
  obtain ⟨holds, creates, active⟩ := locks_next stepped
  have noCreator : world.db.history.isSome → ∀ other ∈ world.others id, ¬ other.creates := by
    intro isThere other member created
    obtain ⟨j, -, isOther⟩ := mem_others.mp member
    rw [coordinated.fresh other (List.mem_of_getElem? isOther) created] at isThere
    cases isThere
  refine coordinated.set (proceeds.next stepped) ?_ ?_ ?_ ?_
  · intro creates'
    rcases creates creates' with before | ⟨absent, -⟩
    · exact coordinated.fresh process (List.mem_of_getElem? found) before
    · simpa using absent
  · intro holds' other member
    rcases holds holds' with before | alone
    · intro also
      obtain ⟨j, apart, isOther⟩ := mem_others.mp member
      exact apart (coordinated.exclusive j id other process isOther found also before)
    · exact alone other member
  · intro creates' other member also
    obtain ⟨j, apart, isOther⟩ := mem_others.mp member
    rcases creates creates' with before | ⟨absent, alone⟩
    · exact apart (coordinated.creator id j process other found isOther before also).symm
    · -- without the table whoever has executed a statement has created it
      rcases (coordinated.proceeds other (List.mem_of_getElem? isOther)).isThere also with
        isThere | created
      · rw [absent] at isThere
        cases isThere
      · exact alone other member created
  · intro active' other member
    rcases active active' with before | isThere | alone
    · intro created
      obtain ⟨j, apart, isOther⟩ := mem_others.mp member
      exact apart (coordinated.creator j id other process isOther found created before)
    · exact noCreator isThere other member
    · exact alone other member

/-- **A commit.** -/
theorem Coordinated.commit (coordinated : Coordinated hexdigest run world)
    (found : world.processes[id]? = some process) {todo : List Migration} {commits : List Commit}
    (isPhase : process.phase = .looping todo []) :
    Coordinated hexdigest run
      { db := process.view world.db
        processes := world.processes.set id process.finish
        commits := commits } := by
  have holds : process.holds := by simp [Process.holds, isPhase]
  have active : process.active := by simp [Process.active, isPhase]
  have proceeds := coordinated.proceeds process (List.mem_of_getElem? found)
  have phase := proceeds.phase
  simp only [isPhase] at phase
  have done := proceeds.up_eq isPhase
  have isThere := (upgrade_of_up phase.1 proceeds.distinct done).2.isThere
  have ended := coordinated.finish found
  refine ⟨?_, ?_, ended.exclusive, ended.creator⟩
  · intro other member
    obtain ⟨j, isOther⟩ := List.mem_iff_getElem?.mp member
    have was := ended.proceeds other member
    refine ⟨was.distinct, fun _ => .inl isThere, was.creates, ?_⟩
    -- nobody else has the lock, and only who has it has seen the database
    have idle : other.holds = false := by
      by_contra also
      rw [Bool.not_eq_false] at also
      rw [List.getElem?_set] at isOther
      by_cases same : id = j
      · rw [if_pos same] at isOther
        split at isOther
        · obtain rfl := Option.some.inj isOther
          cases also
        · cases isOther
      · rw [if_neg same] at isOther
        exact same (coordinated.exclusive id j process other found isOther holds also)
    have phase := was.phase
    unfold Process.holds at idle
    cases isPhase : other.phase with
    | begun | tracked | ended => simpa only [isPhase] using phase
    | _ => simp [isPhase] at idle
  · intro other member created
    obtain ⟨j, isOther⟩ := List.mem_iff_getElem?.mp member
    rw [List.getElem?_set] at isOther
    by_cases same : id = j
    · rw [if_pos same] at isOther
      split at isOther
      · obtain rfl := Option.some.inj isOther
        cases created
      · cases isOther
    · rw [if_neg same] at isOther
      exact absurd (coordinated.creator j id other process isOther found created active)
        (Ne.symm same)

/-- **A new process.** -/
theorem Coordinated.start (coordinated : Coordinated hexdigest run world)
    {ordered : List Migration} (distinct : DistinctIds ordered) (now : Nat) :
    Coordinated hexdigest run
      { world with processes := world.processes ++ [{ migrations := ordered, now := now }] } := by
  have cases_ : ∀ {j : Nat} {other : Process σ},
      (world.processes ++ [{ migrations := ordered, now := now }])[j]? = some other →
        other = { migrations := ordered, now := now } ∨ world.processes[j]? = some other := by
    intro j other found
    rcases Nat.lt_or_ge j world.processes.length with old | new
    · rw [List.getElem?_append_left old] at found
      exact .inr found
    · rw [List.getElem?_append_right new] at found
      exact .inl (List.mem_singleton.mp (List.mem_of_getElem? found))
  refine ⟨?_, ?_, ?_, ?_⟩
  · intro other member
    rcases List.mem_append.mp member with old | new
    · exact coordinated.proceeds other old
    · obtain rfl := List.mem_singleton.mp new
      exact ⟨distinct, nofun, nofun, rfl⟩
  · intro other member
    rcases List.mem_append.mp member with old | new
    · exact coordinated.fresh other old
    · obtain rfl := List.mem_singleton.mp new
      exact nofun
  · intro i j a b foundA foundB holdsA holdsB
    rcases cases_ foundA with rfl | isA
    · cases holdsA
    · rcases cases_ foundB with rfl | isB
      · cases holdsB
      · exact coordinated.exclusive i j a b isA isB holdsA holdsB
  · intro i j a b foundA foundB createsA activeB
    rcases cases_ foundA with rfl | isA
    · cases createsA
    · rcases cases_ foundB with rfl | isB
      · cases activeB
      · exact coordinated.creator i j a b isA isB createsA activeB

/-! ## The commits -/

/-- The commits are upgrades, one after the other. -/
inductive Serial (hexdigest : ByteArray → String) (run : String → σ → Option σ)
    (initial : Database σ) : List Commit → Database σ → Prop where
  | nil : Serial hexdigest run initial [] initial
  | concat {commits : List Commit} {db db' : Database σ} {commit : Commit}
      (before : Serial hexdigest run initial commits db)
      (distinct : DistinctIds commit.migrations)
      (validates : validateHistory hexdigest commit.migrations db.ensureTracking = none)
      (done : up hexdigest run commit.migrations commit.now db = (.ok commit.applied, db')) :
      Serial hexdigest run initial (commits ++ [commit]) db'

/-- **Upgrades one after the other apply every migration once**, and only such as were not
applied at first; all of them are in the history in the end. -/
theorem Serial.once {commits : List Commit} {db : Database σ}
    (serial : Serial hexdigest run initial commits db) :
    (commits.flatMap Commit.applied).Nodup ∧
      (∀ a ∈ commits.flatMap Commit.applied, a ∉ initial.appliedIds ∧ a ∈ db.appliedIds) ∧
        ∀ a ∈ initial.appliedIds, a ∈ db.appliedIds := by
  induction serial with
  | nil => exact ⟨List.nodup_nil, nofun, fun _ member => member⟩
  | @concat commits db db' commit _ distinct validates done ih =>
      obtain ⟨once, isNew, stays⟩ := ih
      obtain ⟨same, upgrade⟩ := upgrade_of_up validates distinct done
      have fresh : ∀ a ∈ commit.applied, a ∉ db.appliedIds ∧ a ∈ db'.appliedIds := by
        intro a member
        rw [same] at member
        obtain ⟨migration, isPending, rfl⟩ := List.mem_map.mp member
        exact ⟨(mem_pending.mp isPending).2,
          mem_appliedIds.mpr ⟨_, upgrade.recorded migration isPending⟩⟩
      have kept : ∀ a ∈ db.appliedIds, a ∈ db'.appliedIds := by
        intro a member
        by_cases again : a ∈ commit.applied
        · exact (fresh a again).2
        · rw [same] at again
          rwa [mem_appliedIds, upgrade.kept a again, ← mem_appliedIds]
      rw [List.flatMap_append, List.flatMap_singleton]
      refine ⟨?_, ?_, fun a member => kept a (stays a member)⟩
      · rw [List.nodup_append]
        refine ⟨once, ?_, ?_⟩
        · rw [same]
          exact distinctIds_pending distinct db.appliedIds
        · rintro a before _ member rfl
          exact (fresh a member).1 (isNew a before).2
      · intro a member
        rcases List.mem_append.mp member with before | last
        · exact ⟨(isNew a before).1, kept a (isNew a before).2⟩
        · exact ⟨fun old => (fresh a last).1 (stays a old), (fresh a last).2⟩

/-! ## Runs -/

/-- **A step** keeps the processes apart, and a commit is one more upgrade. -/
theorem Coordinated.step {action : MigrationAction} (coordinated : Coordinated hexdigest run world)
    (serial : Serial hexdigest run initial world.commits world.db)
    (step : world.step hexdigest run action = some world') :
    Coordinated hexdigest run world' ∧ Serial hexdigest run initial world'.commits world'.db := by
  cases action with
  | start migrations now =>
      rw [MigrationWorld.step] at step
      cases done : orderedMigrations migrations with
      | error error =>
          rw [done] at step
          cases step
      | ok ordered =>
          rw [done] at step
          obtain rfl := Option.some.inj step
          obtain ⟨distinct, -, perm, -⟩ := orderedMigrations_spec done
          exact ⟨coordinated.start ((perm.map _).nodup_iff.mpr distinct) now, serial⟩
  | statement id =>
      obtain ⟨process, found, stepped⟩ := Option.bind_eq_some_iff.mp step
      obtain ⟨process', next, rfl⟩ := Option.map_eq_some_iff.mp stepped
      exact ⟨coordinated.statement found next, serial⟩
  | commit id =>
      obtain ⟨process, found, stepped⟩ := Option.bind_eq_some_iff.mp step
      cases isPhase : process.phase with
      | looping todo rest =>
          cases rest with
          | cons _ _ =>
              simp only [isPhase] at stepped
              cases stepped
          | nil =>
              simp only [isPhase] at stepped
              obtain rfl := Option.some.inj stepped
              have proceeds := coordinated.proceeds process (List.mem_of_getElem? found)
              have phase := proceeds.phase
              simp only [isPhase] at phase
              exact ⟨coordinated.commit found isPhase,
                serial.concat proceeds.distinct phase.1 (proceeds.up_eq isPhase)⟩
      | _ =>
          simp only [isPhase] at stepped
          cases stepped
  | abort id =>
      obtain ⟨process, found, stepped⟩ := Option.bind_eq_some_iff.mp step
      split at stepped
      · cases stepped
      · obtain rfl := Option.some.inj stepped
        exact ⟨coordinated.finish found, serial⟩

end World

end OpsComposer.Services.MigrationEngine
