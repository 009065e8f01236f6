import OpsComposer.Playbooks.Commits

/-!
# The revision history of playbooks

Over the committed states of a run the revisions of a playbook are those from the first to
the current one, and the versions that the transactions have presented for it are
`1, 2, 3, …`: nobody has raised a version that another one has raised.  Since no write goes
to a stored revision, what a state has of a revision every later state has.
-/

set_option autoImplicit false

namespace OpsComposer.Playbooks

open Domain (Uuid)
open Foundations Services RowStore

/-! ## What the committed states hold -/

/-- The versions that the first `n` transactions have presented for a playbook. -/
def presentedVersions (db : PlaybookDb) (n : Nat) (playbookId : Uuid) : List Nat :=
  (db.history.take n).filterMap fun id =>
    db.txns[id]?.bind fun txn => txn.call.presents? playbookId

/-- The numbers of the revisions of a playbook that are stored. -/
def storedRevisions (store : PlaybookStore) (playbookId : Uuid) : List Nat :=
  store.rows.filterMap fun row => (PlaybookRow.revisions.unwrap row).bind fun revision =>
    if revision.playbookId = playbookId then some revision.revision else none

/-- The row of a file of a revision. -/
def PlaybookStore.file? (store : PlaybookStore) (playbookId : Uuid) (revision : Nat)
    (path : Text) : Option PlaybookRow :=
  RowStore.lookup store (PlaybookKey.file playbookId revision path)

/-- The versions presented for a playbook lead to the one that its row has. -/
def Chained (presented : List Nat) : Option DatabasePlaybook → Prop
  | none => presented = []
  | some row => ∃ k, row.version = k + 1 ∧ presented = List.range' 1 k

section States

variable {settings : PlaybookSettings} {db : PlaybookDb}
  {told : PlaybookStatement → List PlaybookRow → Prop}

variable {n : Nat} {playbookId : Uuid}

theorem presentedVersions_succ {id : Nat} {txn : PlaybookTxn} (next : db.history[n]? = some id)
    (found : db.txns[id]? = some txn) (playbookId : Uuid) :
    presentedVersions db (n + 1) playbookId =
      presentedVersions db n playbookId ++ (txn.call.presents? playbookId).toList := by
  rw [presentedVersions, List.take_add_one, next, Option.toList_some, List.filterMap_append]
  refine congrArg (presentedVersions db n playbookId ++ ·) ?_
  rw [List.filterMap_cons, found, Option.bind_some]
  cases txn.call.presents? playbookId <;> rfl

theorem Chained.turns {call : PlaybookCall} {presented : List Nat}
    {before after : Option DatabasePlaybook} (chained : Chained presented before)
    (turns : Turns call playbookId before after) :
    Chained (presented ++ (call.presents? playbookId).toList) after := by
  cases turns with
  | created none first version =>
      obtain rfl : presented = [] := chained
      rw [none]
      exact ⟨0, version, rfl⟩
  | raised presents version =>
      obtain ⟨k, same, rfl⟩ := chained
      refine ⟨k + 1, by rw [version, same], ?_⟩
      rw [presents, same, List.range'_1_concat, Nat.add_comm k 1]
      rfl
  | kept none =>
      rw [none, Option.toList_none, List.append_nil]
      exact chained

/-- The chronicle of a run, with what the logs say. -/
structure Account (settings : PlaybookSettings) (told : PlaybookStatement → List PlaybookRow → Prop)
    (db : PlaybookDb) : Prop where
  chronicle : Db.Chronicle (playbookService settings) PlaybookStatement.effects Table.empty db
  points : Db.AtPoints told (fun call log program =>
    ∀ answer, program = .done answer → Outcome call log) db

/-- The commit after `i` others. -/
theorem Account.commits (account : Account settings told db) {i id : Nat}
    (next : db.history[i]? = some id) :
    ∃ txn : PlaybookTxn, db.txns[id]? = some txn ∧
      Commits settings Table.empty db i txn.call txn.log
        (logged PlaybookStatement.effects txn.log) ∧
      db.stateAt Table.empty (i + 1) =
        applyAll (db.stateAt Table.empty i) (logged PlaybookStatement.effects txn.log) := by
  obtain ⟨txn, found, done⟩ := account.chronicle.txn_of_history next
  obtain ⟨-, -, ended⟩ := account.chronicle.outcome account.points found done
  refine ⟨txn, found, commits_of_plays (account.chronicle.plays next found done) ended, ?_⟩
  rw [Db.Chronicle.stateAt_commit next found, Txn.view, account.chronicle.writes id txn found]

/-- **Every committed state** has the revisions of a playbook complete, after a chain of
versions. -/
theorem Account.complete (account : Account settings told db)
    (bound : n ≤ db.history.length) (playbookId : Uuid) :
    Complete (db.stateAt Table.empty n) playbookId ∧
      Chained (presentedVersions db n playbookId)
        ((db.stateAt Table.empty n : PlaybookStore).playbook? playbookId) := by
  induction n with
  | zero =>
      refine ⟨fun revision => ⟨?_, ?_⟩, rfl⟩
      · rintro ⟨row, isThere⟩
        cases isThere
      · rintro ⟨playbook, isThere, -⟩
        cases isThere
  | succ n ih =>
      obtain ⟨complete, chained⟩ := ih (Nat.le_of_succ_le bound)
      have next := List.getElem?_eq_getElem (Nat.lt_of_succ_le bound)
      obtain ⟨txn, found, commits, after⟩ := account.commits next
      obtain ⟨turns, complete'⟩ := turns_commit commits playbookId complete
      rw [after, presentedVersions_succ next found]
      exact ⟨complete', chained.turns turns⟩

/-- What a committed state has of a revision, every later one has. -/
theorem Account.immutable (account : Account settings told db) {m : Nat} (le : n ≤ m)
    (bound : m ≤ db.history.length) {revision : Nat} {row : PlaybookRow}
    (stored : RowStore.lookup (db.stateAt Table.empty n : PlaybookStore)
      (PlaybookKey.revision playbookId revision) = some row) {k : PlaybookKey}
    (ofRevision : OfRevision playbookId revision k) :
    RowStore.lookup (db.stateAt Table.empty m : PlaybookStore) k =
      RowStore.lookup (db.stateAt Table.empty n : PlaybookStore) k := by
  induction m, le using Nat.le_induction generalizing k with
  | base => rfl
  | succ m le ih =>
      have earlier := Nat.le_of_succ_le bound
      have still := (ih earlier OfRevision.revision).trans stored
      obtain ⟨txn, -, commits, after⟩ :=
        account.commits (List.getElem?_eq_getElem (Nat.lt_of_succ_le bound))
      have spared := spares_commit commits (account.complete earlier playbookId).1 still ofRevision
      rw [after, lookup_applyAll_of_not_mem _ spared]
      exact ih earlier ofRevision

theorem storedRevisions_perm {store : PlaybookStore} (complete : Complete store playbookId) :
    (storedRevisions store playbookId).Perm
      (List.range' 1 ((store.playbook? playbookId).elim 0 DatabasePlaybook.currentRevision)) := by
  have nodup : (storedRevisions store playbookId).Nodup := by
    refine (List.pairwise_map.mp store.unique).filterMap _ ?_
    intro row other apart number one number' two same
    obtain ⟨revision, isRevision, rest⟩ := Option.bind_eq_some_iff.mp one
    obtain ⟨revision', isRevision', rest'⟩ := Option.bind_eq_some_iff.mp two
    obtain ⟨owner, first⟩ := Option.ite_none_right_eq_some.mp rest
    obtain ⟨owner', second⟩ := Option.ite_none_right_eq_some.mp rest'
    obtain rfl := Option.some.inj first
    obtain rfl := Option.some.inj second
    obtain rfl := (PlaybookRow.revisions.unwrap_eq_some _ _).mp isRevision
    obtain rfl := (PlaybookRow.revisions.unwrap_eq_some _ _).mp isRevision'
    exact apart (congrArg₂ PlaybookKey.revision (owner.trans owner'.symm) same)
  refine (List.perm_ext_iff_of_nodup nodup (List.nodup_range' ..)).mpr fun number => ?_
  have stored : number ∈ storedRevisions store playbookId ↔
      ∃ row, RowStore.lookup store (PlaybookKey.revision playbookId number) = some row := by
    rw [storedRevisions, List.mem_filterMap]
    constructor
    · rintro ⟨row, member, shown⟩
      obtain ⟨revision, isRevision, rest⟩ := Option.bind_eq_some_iff.mp shown
      obtain ⟨rfl, same⟩ := Option.ite_none_right_eq_some.mp rest
      obtain rfl := Option.some.inj same
      obtain rfl := (PlaybookRow.revisions.unwrap_eq_some _ _).mp isRevision
      exact ⟨_, RowStore.lookup_of_mem (s := store) member⟩
    · rintro ⟨row, isThere⟩
      have key : row.key = PlaybookKey.revision playbookId number := RowStore.key_of_lookup isThere
      cases row with
      | revision revision =>
          obtain ⟨rfl, rfl⟩ := PlaybookKey.revision.inj key
          exact ⟨_, RowStore.mem_of_lookup isThere, if_pos rfl⟩
      | playbook _ | file _ => cases key
  rw [stored, complete number, List.mem_range'_1]
  cases store.playbook? playbookId with
  | none | some playbook => simp; omega

end States

/-! ## In every run -/

/-- A run goes on from a world to a later one. -/
structure RevisionHistory (settings : PlaybookSettings) (world later : PlaybookWorld) : Prop where
  /-- The stored revisions are those from the first to the current one. -/
  complete : ∀ playbookId, (storedRevisions world.db.state playbookId).Perm
    (List.range' 1 ((world.db.state.playbook? playbookId).elim 0 DatabasePlaybook.currentRevision))
  /-- A revision and its files stay as they are. -/
  immutable : ∀ playbookId revision row, world.db.state.revision? playbookId revision = some row →
    later.db.state.revision? playbookId revision = some row ∧
      ∀ path, later.db.state.file? playbookId revision path =
        world.db.state.file? playbookId revision path
  /-- The operation that has committed after `i` others has presented the version that the
  playbook had when the operation locked it, and that it still had at the commit, and has
  raised it by one. -/
  raised : ∀ (i id : Nat) (txn : PlaybookTxn) (playbookId : Uuid) (version : Nat),
    world.db.history[i]? = some id → world.db.txns[id]? = some txn →
      txn.call.presented? = some (playbookId, version) →
        ∃ n ≤ i, ∃ row row' : DatabasePlaybook,
          LockedAt settings Table.empty world.db txn.log playbookId row n ∧
            row.version = version ∧
            (world.db.stateAt Table.empty i : PlaybookStore).playbook? playbookId = some row ∧
            (world.db.stateAt Table.empty (i + 1) : PlaybookStore).playbook? playbookId =
              some row' ∧
            row'.version = version + 1
  /-- The versions that the operations on a playbook have presented are a chain. -/
  chain : ∀ playbookId, Chained
    (presentedVersions world.db world.db.history.length playbookId)
    (world.db.state.playbook? playbookId)
  /-- Only the commit of an operation that has come to its answer changes anything. -/
  failed : ∀ act next, (playbookSystem settings).step world act = some next →
    next.db.state = world.db.state ∨
      ∃ id txn answer, act = .onDb (.commit id) ∧ world.db.txns[id]? = some txn ∧
        txn.program = .done answer

theorem account_of_reachable {settings : PlaybookSettings} {world : PlaybookWorld}
    (reached : (playbookSystem settings).Reachable world) :
    Account settings (fun _ _ => True) world.db := by
  have invariant : (playbookSystem settings).Inductive fun world =>
      (playbookService settings).Chronicled (fun store => store = Table.empty)
        PlaybookStatement.effects (fun _ _ => True) (fun call _ => Outcome call) world.db :=
    System.Inductive.unrestricted (Service.inductive_chronicled tellable
      (fun _ _ _ _ _ _ => trivial) (ends_program _))
  obtain ⟨⟨_, rfl, chronicle⟩, points⟩ := invariant.of_reachable reached
  exact ⟨chronicle, points⟩

/-- Only the commit of an operation that has come to its answer changes the committed
state. -/
theorem state_of_step {settings : PlaybookSettings} {world next : PlaybookWorld}
    {act : DbAct PlaybookCall} (step : (playbookSystem settings).step world act = some next) :
    next.db.state = world.db.state ∨
      ∃ id txn answer, act = .onDb (.commit id) ∧ world.db.txns[id]? = some txn ∧
        txn.program = .done answer := by
  cases WorldEffect.of_step step with
  | idle => exact .inl rfl
  | onDb effect commits =>
      cases effect with
      | begun _ | moved _ _ => exact .inl rfl
      | @committed id txn answer found stands _ =>
          exact .inr ⟨id, txn, answer, congrArg DbAct.onDb (commits id rfl), found, stands⟩

/-- **The revision history of playbooks** is complete, immutable and free of lost updates. -/
theorem revision_history {settings : PlaybookSettings} {world later : PlaybookWorld}
    (reached : (playbookSystem settings).Reachable world)
    (run : (playbookSystem settings).Leads world later) : RevisionHistory settings world later := by
  have account := account_of_reachable reached
  have account' := account_of_reachable (reached.leads run)
  obtain ⟨grown, past⟩ := Service.past_of_leads Table.empty account.chronicle.recorded run
  have present := account.chronicle.present
  have complete := account.complete le_rfl
  rw [← present] at complete
  constructor
  · exact fun playbookId => storedRevisions_perm (complete playbookId).1
  · intro playbookId revision row stored
    have old : RowStore.lookup world.db.state (PlaybookKey.revision playbookId revision) =
        some (.revision row) := RowKind.at?_eq_some.mp stored
    rw [present, ← past _ le_rfl] at old
    have same : ∀ k, OfRevision playbookId revision k →
        RowStore.lookup later.db.state k = RowStore.lookup world.db.state k := by
      intro k ofRevision
      rw [account'.chronicle.present, present, ← past _ le_rfl]
      exact account'.immutable grown.length_le le_rfl old ofRevision
    exact ⟨(RowKind.at?_congr (same _ .revision)).trans stored, fun path => same _ .file⟩
  · intro i id txn playbookId version next found presented
    obtain ⟨txn', found', commits, after⟩ := account.commits next
    obtain rfl := Option.some.inj (found.symm.trans found')
    generalize logged PlaybookStatement.effects txn.log = writes at commits after
    cases commits with
    | created none key first version adds free | nothing none => rw [presented] at none; cases none
    | @raised raised row last n added presented' isThere before locked old key version adds =>
        obtain ⟨rfl, rfl⟩ := Prod.mk.inj (Option.some.inj (presented'.symm.trans presented))
        refine ⟨n, before, row, last, locked, rfl, isThere, ?_, version⟩
        rw [after]
        exact playbook?_put _ key
  · exact fun playbookId => (complete playbookId).2
  · exact fun act next step => state_of_step step

/-- A project of one file. -/
def siteProject : PlaybookValidationResult where
  sha256 := some [0]
  sizeBytes := some 1
  validatorVersion := some (text "1")
  normalizedFiles := [⟨text "site.yml", text "-", [0], 1⟩]
  entrypoint := some (text "site.yml")

/-- A playbook is created. -/
def playbookCreated : List (DbAct PlaybookCall) :=
  [.onDb (.begin (.create 7 ⟨text "deploy", [], true⟩ .project (.ok siteProject) 1)),
    .onDb (.clock 0 0), .onDb (.perform 0), .onDb (.perform 0), .onDb (.perform 0),
    .onDb (.commit 0)]

/-- Two updates present the first version, and one of them waits for the other. -/
def twoUpdates : List (DbAct PlaybookCall) :=
  [.onDb (.begin (.update 1 7 1 ⟨text "deploy", [], true⟩ .project (.ok siteProject))),
    .onDb (.begin (.update 1 8 1 ⟨text "deploy", [], false⟩ .project (.ok siteProject))),
    .onDb (.clock 1 0), .onDb (.clock 2 0), .onDb (.snapshot 2),
    .onDb (.perform 1), .onDb (.perform 1), .onDb (.perform 1), .onDb (.perform 1),
    .onDb (.perform 1), .onDb (.commit 1), .onDb (.perform 2)]

/-- The settings under which the run goes on. -/
def plainSettings : PlaybookSettings := ⟨true, id⟩

theorem revision_history_two_updates : ∃ world later,
    (playbookSystem plainSettings).exec { clock := 0, db := { state := Table.empty } }
        playbookCreated = some world ∧
      (playbookSystem plainSettings).exec world twoUpdates = some later ∧
        later.db.history = [0, 1] ∧ RevisionHistory plainSettings world later := by
  have ran : ((playbookSystem plainSettings).exec { clock := 0, db := { state := Table.empty } }
      playbookCreated).any (fun world =>
        ((playbookSystem plainSettings).exec world twoUpdates).any fun later =>
          decide (later.db.history = [0, 1])) = true := by
    decide +kernel
  obtain ⟨world, done, rest⟩ := (Option.any_eq_true _ _).mp ran
  obtain ⟨later, done', two⟩ := (Option.any_eq_true _ _).mp rest
  exact ⟨world, later, done, done', of_decide_eq_true two,
    revision_history ⟨_, ⟨_, _, rfl, rfl⟩, System.leads_of_exec done⟩
      (System.leads_of_exec done')⟩

end OpsComposer.Playbooks
