import OpsComposer.Playbooks.Statements

/-!
# What the operations on playbooks commit

A creation adds a playbook with its first revision.  An update, a restore and a deletion lock
the row of the playbook, compare its version with the one presented, and leave it with the
next version; the first two add the revision after the current one (`Commits`).

So one commit writes to no revision that is stored (`spares_commit`), it leaves the revisions
of every playbook complete, and it raises the version of a playbook by one where the call has
presented that version (`turns_commit`).
-/

set_option autoImplicit false

namespace OpsComposer.Playbooks

open Domain (Uuid)
open Foundations Services RowStore
open Services.PlaybookProject (PlaybookRevisionFile)

/-! ## What the operations commit -/

section Writes

variable {settings : PlaybookSettings} {db : PlaybookDb} {start : PlaybookStore} {i : Nat}
  {log : List PlaybookEvent}

/-- A log of playbooks that has run up to the state after `i` commits. -/
abbrev PlaybookPlays (settings : PlaybookSettings) (start : PlaybookStore) (db : PlaybookDb)
    (i : Nat) (before : List (Write PlaybookKey PlaybookRow)) (log : List PlaybookEvent) : Prop :=
  Db.Plays (playbookService settings) PlaybookStatement.effects start db i before log

/-- The writes of the files of a revision. -/
def fileWrites (playbookId : Uuid) (revision : Nat) (files : List PlaybookRevisionFile) :
    List (Write PlaybookKey PlaybookRow) :=
  files.map fun file => .put (.file ⟨playbookId, revision, file⟩)

variable {row : DatabasePlaybook} {files : List PlaybookRevisionFile} {call : PlaybookCall}
  {playbookId : Uuid}

theorem logged_filesAdded {revision : Nat} {before : List (Write PlaybookKey PlaybookRow)}
    (plays : PlaybookPlays settings start db i before log)
    (added : FilesAdded playbookId revision files log) :
    logged PlaybookStatement.effects log = fileWrites playbookId revision files := by
  induction added generalizing before with
  | nil => rfl
  | cons rest ih =>
      obtain ⟨⟨n, -, ran, -⟩, plays⟩ := plays
      obtain ⟨-, rfl, -⟩ := perform_insert ran.performed
      rw [logged_ran, ih plays]
      rfl

/-- A transaction has locked the row of a playbook when `n` others had committed. -/
def LockedAt (settings : PlaybookSettings) (start : PlaybookStore) (db : PlaybookDb)
    (log : List PlaybookEvent) (playbookId : Uuid) (row : DatabasePlaybook) (n : Nat) : Prop :=
  (db.stateAt start n : PlaybookStore).playbook? playbookId = some row ∧
    ∃ shown seen, .ran (.getDocument playbookId true) shown seen ∈ log ∧
      Db.RanAt (playbookService settings) PlaybookStatement.effects start db seen n []
        (.getDocument playbookId true) shown

/-- The writes of the revision that takes a playbook from one current revision to another. -/
inductive Adds (playbookId : Uuid) (current next : Nat) :
    List (Write PlaybookKey PlaybookRow) → Prop where
  | nothing (same : next = current) : Adds playbookId current next []
  | revision {revision : PlaybookRevision} {files : List PlaybookRevisionFile}
      (key : revision.playbookId = playbookId) (number : revision.revision = current + 1)
      (succ : next = current + 1) :
      Adds playbookId current next
        (.put (.revision revision) :: fileWrites playbookId (current + 1) files)

/-- What a transaction commits, on the state after `i` commits. -/
inductive Commits (settings : PlaybookSettings) (start : PlaybookStore) (db : PlaybookDb)
    (i : Nat) (call : PlaybookCall) (log : List PlaybookEvent) :
    List (Write PlaybookKey PlaybookRow) → Prop where
  | created {playbookId : Uuid} {playbook : DatabasePlaybook}
      {added : List (Write PlaybookKey PlaybookRow)} (none : call.presented? = none)
      (key : playbook.playbookId = playbookId) (first : playbook.currentRevision = 1)
      (version : playbook.version = 1) (adds : Adds playbookId 0 1 added)
      (free : (db.stateAt start i : PlaybookStore).playbook? playbookId = .none) :
      Commits settings start db i call log (.put (.playbook playbook) :: added)
  | raised {playbookId : Uuid} {row last : DatabasePlaybook} {n : Nat}
      {added : List (Write PlaybookKey PlaybookRow)}
      (presented : call.presented? = some (playbookId, row.version))
      (isThere : (db.stateAt start i : PlaybookStore).playbook? playbookId = some row)
      (before : n ≤ i) (locked : LockedAt settings start db log playbookId row n)
      (old : row.playbookId = playbookId) (key : last.playbookId = playbookId)
      (version : last.version = row.version + 1)
      (adds : Adds playbookId row.currentRevision last.currentRevision added) :
      Commits settings start db i call log
        (.put (.playbook row) :: added ++ [.put (.playbook last)])
  | nothing (none : call.presented? = none) : Commits settings start db i call log []

theorem adds_of_newRevision {actorUserId : Uuid} {current now : Nat}
    {validation : PlaybookValidationResult} {revisionFormat : PlaybookRevisionFormat}
    {revision : PlaybookRevision}
    (isNew : newRevision playbookId (current + 1) actorUserId validation now revisionFormat =
      some (revision, files)) :
    revision.playbookId = playbookId ∧ revision.revision = current + 1 ∧
      Adds playbookId current (current + 1)
        (.put (.revision revision) :: fileWrites playbookId (current + 1) files) := by
  obtain ⟨sha256, -, rest⟩ := Option.bind_eq_some_iff.mp isNew
  obtain ⟨sizeBytes, -, rest⟩ := Option.bind_eq_some_iff.mp rest
  obtain ⟨validatorVersion, -, rest⟩ := Option.bind_eq_some_iff.mp rest
  obtain ⟨-, same⟩ := Option.ite_none_right_eq_some.mp rest
  obtain ⟨rfl, rfl⟩ := Prod.mk.inj (Option.some.inj same)
  exact ⟨rfl, rfl, .revision rfl rfl rfl⟩

/-- The row of the playbook is the one that the query for its document has locked. -/
theorem first_of_locked {snapshot current : PlaybookStore}
    {clash : PlaybookRow → PlaybookRow → Bool} {shown : List PlaybookRow}
    {writes : List (Write PlaybookKey PlaybookRow)}
    (done : (PlaybookStatement.meaning (.getDocument playbookId true) snapshot).perform clash
      snapshot current = some (shown, writes)) {revision : PlaybookRevision}
    (first : firstDocument? shown = some (row, revision)) :
    current.playbook? playbookId = some row ∧ isActive playbookId row = true ∧
      writes = [.put (.playbook row)] := by
  rcases perform_getDocument done with ⟨found, isThere, active, rfl, rfl⟩ | ⟨rfl, -⟩
  · rw [document] at first
    cases joined : currentRevision? snapshot found with
    | none =>
        rw [joined] at first
        cases first
    | some other =>
        rw [joined] at first
        obtain ⟨rfl, -⟩ := Prod.mk.inj (Option.some.inj first)
        exact ⟨isThere, active, rfl⟩
  · cases first

theorem commits_of_created (none : call.presented? = none)
    (plays : PlaybookPlays settings start db i [] log) (created : Created playbookId log) :
    Commits settings start db i call log (logged PlaybookStatement.effects log) := by
  cases created with
  | @log data actorUserId validation revisionFormat now revision files rows rows' seen seen' events
      isNew added =>
      obtain ⟨⟨⟨n, -, ran, kept⟩, ⟨n', -, ran', -⟩, -⟩, rest⟩ := Db.plays_append.mp plays
      obtain ⟨free, rfl, -⟩ := perform_insert ran.performed
      obtain ⟨-, rfl, -⟩ := perform_insert ran'.performed
      obtain ⟨key, number, adds⟩ := adds_of_newRevision isNew
      rw [key, number] at added
      rw [logged_append, logged_filesAdded rest added]
      refine .created none rfl rfl rfl adds ?_
      have still := (kept _ (List.mem_cons_self ..)).symm.trans free
      exact Option.bind_eq_none_iff.mpr fun row isThere => nomatch still.symm.trans isThere

theorem mem_touched_fileWrites {revision : Nat} {k : PlaybookKey}
    (member : k ∈ touched PlaybookStore (fileWrites playbookId revision files)) :
    ∃ path, k = .file playbookId revision path := by
  obtain ⟨write, isWritten, rfl⟩ := mem_touched.mp member
  obtain ⟨file, -, rfl⟩ := List.mem_map.mp isWritten
  exact ⟨file.path, rfl⟩

/-- The keys of a revision and of its files. -/
inductive OfRevision (playbookId : Uuid) (revision : Nat) : PlaybookKey → Prop where
  | revision : OfRevision playbookId revision (.revision playbookId revision)
  | file {path : Text} : OfRevision playbookId revision (.file playbookId revision path)

/-- What is added is the next revision. -/
theorem Adds.ofRevision {current next : Nat}
    {added : List (Write PlaybookKey PlaybookRow)} (adds : Adds playbookId current next added)
    {k : PlaybookKey} (member : k ∈ touched PlaybookStore added) :
    next = current + 1 ∧ OfRevision playbookId (current + 1) k := by
  cases adds with
  | nothing same => cases member
  | @revision revision files key number succ =>
      refine ⟨succ, ?_⟩
      rcases List.mem_cons.mp member with rfl | member
      · have same : written PlaybookStore (.put (.revision revision)) =
            .revision playbookId (current + 1) := congrArg₂ PlaybookKey.revision key number
        exact same ▸ .revision
      · obtain ⟨path, rfl⟩ := mem_touched_fileWrites member
        exact .file

/-- The playbook that is put last is the one that is seen. -/
theorem playbook?_put {store : PlaybookStore} (before : List (Write PlaybookKey PlaybookRow))
    (key : row.playbookId = playbookId) :
    (applyAll store (before ++ [.put (.playbook row)])).playbook? playbookId = some row := by
  show PlaybookRow.playbooks.at? _ _ = _
  exact RowKind.at?_put before (congrArg PlaybookKey.playbook key)

/-- The playbook that is put before its revision is added is the one that is seen. -/
theorem playbook?_adds {store : PlaybookStore} {current next : Nat}
    {added : List (Write PlaybookKey PlaybookRow)} (adds : Adds playbookId current next added)
    {other : Uuid} (key : row.playbookId = other) :
    (applyAll store (.put (.playbook row) :: added)).playbook? other = some row := by
  have free : PlaybookKey.playbook other ∉ touched PlaybookStore added := fun member =>
    nomatch (adds.ofRevision member).2
  exact (RowKind.at?_frame free).trans (playbook?_put [] key)

/-- The lock on the row of a playbook, in a log that goes on. -/
theorem locked_of_plays {now seen : Nat} {found : List PlaybookRow}
    {rest : List PlaybookEvent} {old : PlaybookRevision}
    (plays : PlaybookPlays settings start db i []
      (.clock now :: .ran (.getDocument playbookId true) found seen :: rest))
    (isFound : firstDocument? found = some (row, old)) :
    row.playbookId = playbookId ∧
      (db.stateAt start i : PlaybookStore).playbook? playbookId = some row ∧
      PlaybookStatement.effects (.getDocument playbookId true) found = [.put (.playbook row)] ∧
      (∃ n ≤ i, LockedAt settings start db
        (.clock now :: .ran (.getDocument playbookId true) found seen :: rest) playbookId row n) ∧
      PlaybookPlays settings start db i [.put (.playbook row)] rest := by
  obtain ⟨⟨n, before, ran, kept⟩, rest⟩ := plays
  obtain ⟨isThere, active, written⟩ := first_of_locked ran.performed isFound
  rw [written] at kept rest
  have still : lookup (db.stateAt start n) (PlaybookKey.playbook playbookId) =
      lookup (db.stateAt start i) (PlaybookKey.playbook playbookId) :=
    only_isActive active ▸ kept _ (List.mem_cons_self ..)
  refine ⟨(of_decide_eq_true active).1, ?_, written,
    ⟨n, before, isThere, found, seen, .tail _ (.head _), ran⟩, rest⟩
  exact (RowKind.at?_congr still).symm.trans isThere

theorem commits_of_updated {expectedVersion : Nat}
    (presented : call.presented? = some (playbookId, expectedVersion))
    (plays : PlaybookPlays settings start db i [] log)
    (updated : Updated playbookId expectedVersion log) :
    Commits settings start db i call log (logged PlaybookStatement.effects log) := by
  cases updated with
  | @log data actorUserId validation revisionFormat now current updated old revision files found
      kept rows rows' s₁ s₂ s₃ s₄ events isFound same isNew added isUpdated =>
      rw [List.append_assoc] at plays ⊢
      simp only [List.cons_append, List.nil_append] at plays
      obtain ⟨key, isThere, written, ⟨n, before, locked⟩, plays⟩ := locked_of_plays plays isFound
      obtain ⟨-, ⟨n', -, ran', -⟩, plays⟩ := plays
      obtain ⟨plays, ⟨n'', -, ran'', -⟩, -⟩ := Db.plays_append.mp plays
      obtain ⟨-, rfl, -⟩ := perform_insert ran'.performed
      obtain ⟨isKey, number, adds⟩ := adds_of_newRevision isNew
      rw [isKey, number] at added
      have inserts := logged_filesAdded plays added
      rcases perform_setPlaybook
          (f := withRevision (editedPlaybook data actorUserId expectedVersion now current))
          (fun _ => rfl) ran''.performed with ⟨row, isRow, -, -, rfl, -⟩ | ⟨rfl, -⟩
      · rw [inserts] at isRow
        obtain rfl : current = row := by
          refine Option.some.inj (Eq.trans ?_ isRow)
          exact (playbook?_adds adds rfl).symm
        have writes : logged PlaybookStatement.effects
            ([.clock now, .ran (.getDocument playbookId true) found s₁,
                .ran (.getFiles playbookId old.revision) kept s₂,
                .ran (.insertRevision revision) [.revision revision] s₃] ++
              (events ++ [.ran (.update (editedPlaybook data actorUserId expectedVersion now
                current) expectedVersion) [.playbook (withRevision (editedPlaybook data actorUserId
                  expectedVersion now current) current)] s₄])) =
            .put (.playbook current) :: (.put (.revision revision) ::
                fileWrites playbookId (current.currentRevision + 1) files) ++
              [.put (.playbook (withRevision (editedPlaybook data actorUserId expectedVersion now
                current) current))] := by
          rw [logged_append, logged_append, inserts, logged_clock, logged_ran, written]
          rfl
        rw [writes]
        subst same
        exact .raised presented isThere before locked key key rfl adds
      · cases isUpdated

theorem commits_of_deleted {expectedVersion : Nat}
    (presented : call.presented? = some (playbookId, expectedVersion))
    (plays : PlaybookPlays settings start db i [] log)
    (deleted : Deleted playbookId expectedVersion log) :
    Commits settings start db i call log (logged PlaybookStatement.effects log) := by
  cases deleted with
  | @log actorUserId now current deleted old found kept rows s₁ s₂ s₃ isFound same isDeleted =>
      obtain ⟨key, isThere, written, ⟨n, before, locked⟩, plays⟩ := locked_of_plays plays isFound
      obtain ⟨-, ⟨n', -, ran', -⟩, -⟩ := plays
      have nothing : Adds playbookId current.currentRevision current.currentRevision [] :=
        .nothing rfl
      rcases perform_setPlaybook (f := softDeleted now actorUserId) (fun _ => rfl) ran'.performed
        with ⟨row, isRow, -, -, rfl, -⟩ | ⟨rfl, -⟩
      · obtain rfl : current = row := by
          refine Option.some.inj (Eq.trans ?_ isRow)
          exact (playbook?_adds nothing key).symm
        have writes : logged PlaybookStatement.effects
            [.clock now, .ran (.getDocument playbookId true) found s₁,
              .ran (.getFiles playbookId old.revision) kept s₂,
              .ran (.softDelete playbookId expectedVersion now actorUserId)
                [.playbook (softDeleted now actorUserId current)] s₃] =
            .put (.playbook current) :: [] ++
              [.put (.playbook (softDeleted now actorUserId current))] := by
          rw [logged_clock, logged_ran, written]
          rfl
        rw [writes]
        subst same
        exact .raised presented isThere before locked key key rfl nothing
      · cases isDeleted

/-- Every log of an operation commits one of the list. -/
theorem commits_of_plays (plays : PlaybookPlays settings start db i [] log)
    (ended : Outcome call log) :
    Commits settings start db i call log (logged PlaybookStatement.effects log) := by
  cases ended with
  | created none created => exact commits_of_created none plays created
  | updated presented updated => exact commits_of_updated presented plays updated
  | deleted presented deleted => exact commits_of_deleted presented plays deleted
  | read none silent => exact silent ▸ .nothing none

end Writes

/-! ## One commit -/

/-- The revisions of a playbook are those from the first to the current one. -/
def Complete (store : PlaybookStore) (playbookId : Uuid) : Prop :=
  ∀ revision, (∃ row, RowStore.lookup store (PlaybookKey.revision playbookId revision) = some row) ↔
    ∃ playbook, store.playbook? playbookId = some playbook ∧
      1 ≤ revision ∧ revision ≤ playbook.currentRevision

/-- The version that a call presents for a playbook. -/
def PlaybookCall.presents? (call : PlaybookCall) (playbookId : Uuid) : Option Nat :=
  call.presented?.bind fun presented =>
    if presented.1 = playbookId then some presented.2 else none

section Commit

variable {settings : PlaybookSettings} {db : PlaybookDb} {start store : PlaybookStore} {i : Nat}
  {call : PlaybookCall} {log : List PlaybookEvent} {writes : List (Write PlaybookKey PlaybookRow)}

variable {revision : Nat} {k : PlaybookKey} {other playbookId : Uuid}

theorem OfRevision.unique {revision' : Nat} (one : OfRevision playbookId revision k)
    (two : OfRevision other revision' k) : playbookId = other ∧ revision = revision' := by
  cases one <;> cases two <;> exact ⟨rfl, rfl⟩

theorem OfRevision.ne_of_other
    (ofRevision : OfRevision playbookId revision k) (apart : playbookId ≠ other) :
    k ≠ .playbook other ∧ ∀ revision', k ≠ .revision other revision' := by
  cases ofRevision with
  | revision => exact ⟨nofun, fun _ same => apart (PlaybookKey.revision.inj same).1⟩
  | file => exact ⟨nofun, nofun⟩

theorem Adds.current {current next : Nat}
    (adds : Adds playbookId current next writes) : next = current ∨ next = current + 1 := by
  cases adds with
  | nothing same => exact .inl same
  | revision _ _ succ => exact .inr succ

/-- Which revisions are stored after one has been added. -/
theorem revision_adds {current next : Nat} {added : List (Write PlaybookKey PlaybookRow)}
    (adds : Adds playbookId current next added) (first : DatabasePlaybook) :
    (∃ row, RowStore.lookup (applyAll store (.put (.playbook first) :: added))
        (PlaybookKey.revision other revision) = some row) ↔
      (∃ row, RowStore.lookup store (PlaybookKey.revision other revision) = some row) ∨
        (other = playbookId ∧ revision = current + 1 ∧ next = current + 1) := by
  have playbook : ∀ k : PlaybookKey, OfRevision other revision k →
      RowStore.lookup (apply store (.put (.playbook first))) k = RowStore.lookup store k := by
    intro k ofRevision
    rw [lookup_apply, if_neg]
    rintro rfl
    cases ofRevision
  cases adds with
  | nothing same =>
      rw [applyAll_cons, applyAll_nil, playbook _ .revision]
      refine ⟨.inl, fun either => either.resolve_right ?_⟩
      omega
  | @revision row files key number succ =>
      have free : PlaybookKey.revision other revision ∉
          touched PlaybookStore (fileWrites playbookId (current + 1) files) := fun member => by
        obtain ⟨path, same⟩ := mem_touched_fileWrites member
        cases same
      have same : written PlaybookStore (.put (.revision row)) =
          .revision playbookId (current + 1) := congrArg₂ PlaybookKey.revision key number
      rw [applyAll_cons, applyAll_cons, lookup_applyAll_of_not_mem _ free, lookup_apply, same,
        playbook _ .revision]
      by_cases here : PlaybookKey.revision playbookId (current + 1) = .revision other revision
      · obtain ⟨rfl, rfl⟩ := PlaybookKey.revision.inj here
        rw [if_pos rfl]
        exact ⟨fun _ => .inr ⟨rfl, rfl, succ⟩, fun _ => ⟨_, rfl⟩⟩
      · rw [if_neg here]
        refine ⟨.inl, fun either => either.resolve_right ?_⟩
        rintro ⟨rfl, rfl, -⟩
        exact here rfl

/-- A playbook that is put last changes no revision. -/
theorem lookup_put_playbook {before : List (Write PlaybookKey PlaybookRow)}
    {last : DatabasePlaybook} :
    RowStore.lookup (applyAll store (before ++ [.put (.playbook last)]))
        (PlaybookKey.revision playbookId revision) =
      RowStore.lookup (applyAll store before) (PlaybookKey.revision playbookId revision) := by
  rw [applyAll_append, applyAll_cons, applyAll_nil, lookup_apply]
  exact if_neg nofun

/-- **No write goes to a stored revision.** -/
theorem spares_commit (commits : Commits settings start db i call log writes) {row : PlaybookRow}
    (complete : Complete (db.stateAt start i) playbookId)
    (stored : RowStore.lookup (db.stateAt start i) (PlaybookKey.revision playbookId revision) =
      some row) (ofRevision : OfRevision playbookId revision k) :
    k ∉ touched PlaybookStore writes := by
  obtain ⟨playbook, isThere, -, upTo⟩ := (complete revision).mp ⟨row, stored⟩
  intro member
  cases commits with
  | @created created first added none key one version adds free =>
      rcases List.mem_cons.mp member with rfl | member
      · cases ofRevision
      · obtain ⟨-, isNew⟩ := adds.ofRevision member
        obtain ⟨rfl, -⟩ := ofRevision.unique isNew
        rw [isThere] at free
        cases free
  | @raised raised old last n added presented here before locked isOld key version adds =>
      rw [touched_append, List.mem_append] at member
      rcases member with member | member
      · rcases List.mem_cons.mp member with rfl | member
        · cases ofRevision
        · obtain ⟨-, isNew⟩ := adds.ofRevision member
          obtain ⟨rfl, rfl⟩ := ofRevision.unique isNew
          obtain rfl : old = playbook := Option.some.inj (here.symm.trans isThere)
          omega
      · obtain rfl := List.mem_singleton.mp member
        cases ofRevision
  | nothing none => cases member

/-- What a commit leaves of the row of a playbook. -/
inductive Turns (call : PlaybookCall) (playbookId : Uuid) :
    Option DatabasePlaybook → Option DatabasePlaybook → Prop where
  | created {row : DatabasePlaybook} (none : call.presents? playbookId = .none)
      (first : row.currentRevision = 1) (version : row.version = 1) :
      Turns call playbookId .none (some row)
  | raised {row last : DatabasePlaybook} (presents : call.presents? playbookId = some row.version)
      (version : last.version = row.version + 1) : Turns call playbookId (some row) (some last)
  | kept {row? : Option DatabasePlaybook} (none : call.presents? playbookId = .none) :
      Turns call playbookId row? row?

/-- **One commit**: the row of every playbook, and that its revisions stay complete. -/
theorem turns_commit (commits : Commits settings start db i call log writes) (playbookId : Uuid)
    (complete : Complete (db.stateAt start i) playbookId) :
    Turns call playbookId ((db.stateAt start i : PlaybookStore).playbook? playbookId)
        ((applyAll (db.stateAt start i) writes).playbook? playbookId) ∧
      Complete (applyAll (db.stateAt start i) writes) playbookId := by
  have frame : call.presents? playbookId = .none →
      (∀ k ∈ touched PlaybookStore writes, k ≠ .playbook playbookId ∧
        ∀ revision, k ≠ .revision playbookId revision) →
      Turns call playbookId ((db.stateAt start i : PlaybookStore).playbook? playbookId)
          ((applyAll (db.stateAt start i) writes).playbook? playbookId) ∧
        Complete (applyAll (db.stateAt start i) writes) playbookId := by
    intro none free
    have same : (applyAll (db.stateAt start i) writes).playbook? playbookId =
        (db.stateAt start i : PlaybookStore).playbook? playbookId :=
      RowKind.at?_frame fun member => (free _ member).1 rfl
    rw [same]
    refine ⟨.kept none, fun revision => ?_⟩
    rw [same, lookup_applyAll_of_not_mem _ fun member => (free _ member).2 revision rfl]
    exact complete revision
  cases commits with
  | @created created first added none key one version adds free =>
      have silent : call.presents? playbookId = .none := by rw [PlaybookCall.presents?, none]; rfl
      by_cases isIt : created = playbookId
      · subst isIt
        have after : (applyAll (db.stateAt start i)
            (.put (.playbook first) :: added)).playbook? created = some first :=
          playbook?_adds adds key
        rw [free, after]
        refine ⟨.created silent one version, fun revision => ?_⟩
        rw [revision_adds adds, complete revision, free, after]
        simp [one]
        omega
      · refine frame silent fun k member => ?_
        rcases List.mem_cons.mp member with rfl | member
        · exact ⟨fun same => isIt (key.symm.trans (PlaybookKey.playbook.inj same)), nofun⟩
        · exact (adds.ofRevision member).2.ne_of_other isIt
  | @raised raised old last n added presented here before locked isOld key version adds =>
      by_cases isIt : raised = playbookId
      · subst isIt
        have presents : call.presents? raised = some old.version := by
          rw [PlaybookCall.presents?, presented]
          exact if_pos rfl
        have after : (applyAll (db.stateAt start i) (.put (.playbook old) :: added ++
            [.put (.playbook last)])).playbook? raised = some last :=
          playbook?_put _ key
        rw [here, after]
        refine ⟨.raised presents version, fun revision => ?_⟩
        rw [lookup_put_playbook, revision_adds adds, complete revision, here, after]
        simp only [Option.some.injEq, exists_eq_left', true_and]
        have or_same : last.currentRevision = old.currentRevision ∨
            last.currentRevision = old.currentRevision + 1 := adds.current
        omega
      · have silent : call.presents? playbookId = .none := by
          rw [PlaybookCall.presents?, presented]
          exact if_neg isIt
        refine frame silent fun k member => ?_
        rw [touched_append, List.mem_append] at member
        rcases member with member | member
        · rcases List.mem_cons.mp member with rfl | member
          · exact ⟨fun same => isIt (isOld.symm.trans (PlaybookKey.playbook.inj same)), nofun⟩
          · exact (adds.ofRevision member).2.ne_of_other isIt
        · obtain rfl := List.mem_singleton.mp member
          exact ⟨fun same => isIt (key.symm.trans (PlaybookKey.playbook.inj same)), nofun⟩
  | nothing none =>
      have silent : call.presents? playbookId = .none := by rw [PlaybookCall.presents?, none]; rfl
      exact frame silent fun k member => nomatch member

end Commit

end OpsComposer.Playbooks
