import OpsComposer.AuditTrail.Trail

/-!
# The export is complete

The cursor of the export is the identifier of an event, and when that event has been
purged the next page is empty.  Nothing is lost as long as a purge deletes with an event
everything that comes before it:

* `Later` — between two committed states events are deleted from the oldest on, and the
  new ones do not come before those that stay;
* `Orderly` — the same for the deletions of a purge that is under way;
* `complete_of_reachable` — the pages list, in descending order, all that matched when the
  first of them was read and is still stored;
* `exportIncomplete_fails` — an event that is committed with the timestamp of another one, but with
  a smaller identifier, can be lost.
-/

set_option autoImplicit false

namespace OpsComposer.AuditTrail

open Domain Foundations RowStore

/-! ## Steps of the system -/

/-- What a step does. -/
inductive AuditEffect (world : AuditWorld) (act : AuditAct) : AuditWorld → Prop where
  | onDb {time : Nat} {db : AuditDb}
      (effect : Db.Effect auditService (Admits world.db) time world.db db)
      (commits : ∀ id, db.history = world.db.history ++ [id] → act = .onDb (.commit id)) :
      AuditEffect world act { world with db := db }
  | started (query : AuditQuery) :
      AuditEffect world act
        { world with exports := world.exports ++ [.start query world.db.state] }
  | turned {i : Nat} {loop : Export} (found : world.exports[i]? = some loop)
      (running : loop.ended = false) :
      AuditEffect world act
        { world with exports := world.exports.set i (loop.turn world.db.state) }

theorem admits_iff {world : AuditWorld} {call : AuditCall} :
    world.admits call = true ↔ Admits world.db call := by
  simp [AuditWorld.admits, Admits]

theorem effect_of_onDb {world world' : AuditWorld} (time : Nat) {action : DbAction AuditCall}
    (within : action.Within (Admits world.db) time) (step : world.onDb action = some world') :
    AuditEffect world (.onDb action) world' := by
  obtain ⟨db, stepped, rfl⟩ := Option.map_eq_some_iff.mp step
  refine .onDb (Db.effect_of_step within stepped) fun id grown => ?_
  rcases Db.history_of_step stepped with same | ⟨id', rfl, grown'⟩
  · simp [same] at grown
  · obtain rfl : id' = id := by simpa using grown'.symm.trans grown
    rfl

/-- **Inversion.** -/
theorem effect_of_step {world world' : AuditWorld} {act : AuditAct}
    (step : world.step act = some world') : AuditEffect world act world' := by
  cases act with
  | exportEvents query => exact Option.some.inj step ▸ .started query
  | turn i =>
      obtain ⟨loop, found, rest⟩ := Option.bind_eq_some_iff.mp step
      cases ended : loop.ended with
      | true => simp [ended] at rest
      | false =>
          simp only [ended, Bool.false_eq_true, if_false] at rest
          exact Option.some.inj rest ▸ .turned found ended
  | onDb action =>
      cases action with
      | begin call =>
          simp only [AuditWorld.step] at step
          split at step
          · rename_i admitted
            exact effect_of_onDb 0 (admits_iff.mp admitted) step
          · cases step
      | clock id now => exact effect_of_onDb now rfl step
      | snapshot id | perform id | check id | commit id | abort id =>
          exact effect_of_onDb 0 trivial step

/-! ## The order of commits -/

/-- No event is committed later with an older timestamp. -/
def NotOlder (world : AuditWorld) : AuditAct → Prop
  | .onDb (.commit id) => ∀ txn ∈ world.db.txns[id]?, ∀ event ∈ txn.call.events,
      ∀ stored ∈ world.db.state.events, stored.occurredAt ≤ event.occurredAt
  | _ => True

/-- No event is committed later with an older timestamp, or with the same timestamp and a
smaller identifier. -/
def InOrder (world : AuditWorld) : AuditAct → Prop
  | .onDb (.commit id) => ∀ txn ∈ world.db.txns[id]?, ∀ event ∈ txn.call.events,
      ∀ stored ∈ world.db.state.events, stored.position ≤ event.position
  | _ => True

/-- What has become of the events of an earlier committed state. -/
structure Later (first : AuditStore) (db : AuditDb) : Prop where
  appended : ∀ event ∈ first.events, Appended db event
  /-- New events do not come before old ones that are still there. -/
  newer : ∀ old ∈ first.events, old ∈ db.state.events → ∀ event ∈ db.state.events,
    event ∉ first.events → old.position ≤ event.position
  /-- Old events are deleted from the oldest on. -/
  oldest : ∀ event ∈ first.events, ∀ older ∈ first.events, older.position < event.position →
    older ∈ db.state.events → event ∈ db.state.events

theorem Later.refl {db : AuditDb} (trail : Trail db) : Later db.state db where
  appended := trail.stored
  newer _ _ _ _ member absent := absurd member absent
  oldest _ member _ _ _ _ := member

/-- What the transactions of the trail keep, and what they have read. -/
structure Orderly (db : AuditDb) : Prop where
  trail : Trail db
  snapshots : ∀ (id : Nat) (txn : AuditTxn), db.txns[id]? = some txn →
    ∀ snapshot ∈ txn.snapshot, Later snapshot.state db
  /-- A purge under way has deleted, with an event, all that comes before it. -/
  erases : ∀ (id : Nat) (txn : AuditTxn), db.txns[id]? = some txn → txn.live = true →
    ∀ event ∈ db.state.events, .erase (.event event.auditEventId) ∈ txn.writes →
      ∀ older ∈ db.state.events, older.position < event.position →
        .erase (.event older.auditEventId) ∈ txn.writes

section Step

variable {time : Nat} {db db' : AuditDb}

/-- When the step is a commit, its events do not come before a stored one. -/
def Ordered (db db' : AuditDb) : Prop :=
  ∀ (id : Nat) (txn : AuditTxn), db'.history = db.history ++ [id] → db.txns[id]? = some txn →
    ∀ event ∈ txn.call.events, ∀ stored ∈ db.state.events, stored.position ≤ event.position

/-- A step brings no deleted event back. -/
theorem stored_before (trail : Trail db) (effect : Db.Effect auditService (Admits db) time db db')
    {event : AuditEvent} (appended : Appended db event) (stored : event ∈ db'.state.events) :
    event ∈ db.state.events := by
  cases effect with
  | begun _ | moved _ _ => exact stored
  | committed found _ ready =>
      refine (trail.of_mem_events_view found stored).resolve_right fun isOwn => ?_
      exact trail.not_appended found (Db.live_of_ready ready) isOwn appended rfl

/-- **One step** deletes from the oldest event on. -/
theorem Later.effect {first : AuditStore} (later : Later first db) (orderly : Orderly db)
    (effect : Db.Effect auditService (Admits db) time db db') (ordered : Ordered db db') :
    Later first db' := by
  have appended : ∀ event ∈ first.events, Appended db' event := fun event member =>
    (later.appended event member).effect effect
  -- an event of the first state is not one that the step adds
  have old : ∀ event ∈ first.events, event ∈ db'.state.events → event ∈ db.state.events :=
    fun event member => stored_before orderly.trail effect (later.appended event member)
  cases effect with
  | begun _ | moved _ _ => exact ⟨appended, later.newer, later.oldest⟩
  | @committed id txn _ found _ ready =>
      have live := Db.live_of_ready ready
      have trail := orderly.trail
      refine ⟨appended, ?_, ?_⟩
      · intro event member shown other shown' absent
        have stored := old event member shown
        rcases trail.of_mem_events_view found shown' with isStored | isOwn
        · exact later.newer event member stored other isStored absent
        · exact ordered id txn rfl found other isOwn event stored
      · intro event member older member' before shown
        have olderStored := old older member' shown
        have stored := later.oldest event member older member' before olderStored
        refine (trail.stays_or_erased found live stored (trail.stored event stored)).resolve_right ?_
        intro erase
        have also := orderly.erases id txn found live event stored erase older olderStored before
        exact trail.not_mem_of_erase found also shown

/-- What a purge deletes now keeps the order. -/
theorem erases_of_performed (orderly : Orderly db) {id : Nat} {txn : AuditTxn}
    (found : db.txns[id]? = some txn) (live : txn.live = true) {statement : AuditStatement}
    {shown : List AuditRow} {writes : List (Write AuditKey AuditRow)}
    (result : db.performed auditService id txn statement = some (some (shown, writes)))
    {event older : AuditEvent} (stored : event ∈ db.state.events)
    (erase : .erase (.event event.auditEventId) ∈ txn.writes ++ writes)
    (olderStored : older ∈ db.state.events) (before : older.position < event.position) :
    .erase (.event older.auditEventId) ∈ txn.writes ++ writes := by
  have trail := orderly.trail
  have early : .erase (.event event.auditEventId) ∈ txn.writes →
      .erase (.event older.auditEventId) ∈ txn.writes ++ writes := fun earlier =>
    List.mem_append_left _
      (orderly.erases id txn found live event stored earlier older olderStored before)
  have later : Later (db.snapshotFor txn).state db := by
    cases taken : txn.snapshot with
    | none => simpa [Db.snapshotFor, taken] using Later.refl trail
    | some snapshot =>
        simpa [Db.snapshotFor, taken] using orderly.snapshots id txn found snapshot taken
  rcases List.mem_append.mp erase with earlier | now
  · exact early earlier
  rcases trail.stays_or_erased found live stored (trail.stored event stored) with seen | earlier
  · obtain ⟨⟨cutoff, batchSize, rfl⟩, -⟩ := purge_of_erase result now
    have isExpired := (mem_erased result seen).mp now
    -- the snapshot has the event, and so it has the older one
    have inSnapshot : event ∈ (db.snapshotFor txn).state.events := by
      refine (trail.of_mem_events_view found
        (AuditRepository.of_mem_expired isExpired).1).resolve_right fun isOwn => ?_
      exact trail.not_appended found live isOwn (trail.stored event stored) rfl
    have olderInSnapshot : older ∈ (db.snapshotFor txn).state.events := by
      by_contra absent
      exact not_le_of_gt before
        (later.newer event inSnapshot stored older olderStored absent)
    rcases trail.stays_or_erased found live olderInSnapshot (trail.stored older olderStored) with
      olderSeen | gone
    · rcases trail.stays_or_erased found live olderStored (trail.stored older olderStored) with
        stays | gone
      · exact List.mem_append_right _ ((mem_erased result stays).mpr
          (AuditRepository.expired_closed isExpired olderSeen before))
      · exact List.mem_append_left _ gone
    · exact List.mem_append_left _ gone
  · exact early earlier

theorem Orderly.effect (orderly : Orderly db)
    (effect : Db.Effect auditService (Admits db) time db db') (ordered : Ordered db db') :
    Orderly db' where
  trail := orderly.trail.effect effect
  snapshots j t present snapshot taken := by
    have before : ∀ {first : AuditStore}, Later first db → Later first db' := fun later =>
      later.effect orderly effect ordered
    have initially := Later.refl orderly.trail
    cases effect with
    | begun _ =>
        rcases Db.of_getElem?_append present with ⟨-, rfl⟩ | old
        · cases taken
        · exact before (orderly.snapshots j t old snapshot taken)
    | @moved id txn txn' found moves =>
        rcases Db.of_getElem?_set found present with ⟨rfl, rfl⟩ | ⟨-, old⟩
        · cases moves with
          | clock _ _ | checked _ _ _ _ _ | aborted _ =>
              exact before (orderly.snapshots id txn found snapshot taken)
          | snapshot _ _ _ =>
              obtain rfl := Option.some.inj taken
              exact before initially
          | performed _ _ _ => cases taken
        · exact before (orderly.snapshots j t old snapshot taken)
    | @committed id txn _ found _ _ =>
        rcases Db.of_getElem?_set found present with ⟨rfl, rfl⟩ | ⟨-, old⟩
        · exact before (orderly.snapshots id txn found snapshot taken)
        · exact before (orderly.snapshots j t old snapshot taken)
  erases j t present live event stored erase older olderStored before := by
    cases effect with
    | begun _ =>
        rcases Db.of_getElem?_append present with ⟨-, rfl⟩ | old
        · cases erase
        · exact orderly.erases j t old live event stored erase older olderStored before
    | @moved id txn txn' found moves =>
        rcases Db.of_getElem?_set found present with ⟨rfl, rfl⟩ | ⟨-, old⟩
        · have kept := orderly.erases id txn found moves.live event stored
          cases moves with
          | clock _ _ | snapshot _ _ _ | checked _ _ _ _ _ =>
              exact kept erase older olderStored before
          | aborted _ => cases live
          | performed running _ result =>
              exact erases_of_performed orderly found (by simp [Txn.live, running]) result stored
                erase olderStored before
        · exact orderly.erases j t old live event stored erase older olderStored before
    | @committed id txn _ found _ ready =>
        have trail := orderly.trail
        rcases Db.of_getElem?_set found present with ⟨-, rfl⟩ | ⟨apart, old⟩
        · cases live
        · -- what another transaction has deleted was stored before this commit
          obtain ⟨other, appended, named⟩ := trail.erased j t old event.auditEventId erase
          have wasStored : event ∈ db.state.events :=
            (trail.of_mem_events_view found stored).resolve_right fun isOwn =>
              trail.not_appended found (Db.live_of_ready ready) isOwn appended named.symm
          rcases trail.of_mem_events_view found olderStored with olderWas | isOwn
          · exact orderly.erases j t old live event wasStored erase older olderWas before
          · exact absurd (ordered id txn rfl found older isOwn event wasStored)
              (not_le_of_gt before)

end Step

/-! ## Exports -/

/-- What an export has listed, and what it has still to list. -/
structure Follows (loop : Export) (db : AuditDb) : Prop where
  later : Later loop.first db
  listed : ∀ event ∈ loop.listed, event ∈ loop.first.events ∧ loop.query.filters event = true
  descending : loop.listed.Pairwise fun event other => other.position < event.position
  cursor : loop.ended = false → ∃ event, loop.listed.getLast? = some event ∧
    loop.cursor = some event.auditEventId
  /-- What is missing comes after all that is listed. -/
  complete : ∀ event ∈ loop.first.events, loop.query.filters event = true →
    event ∈ db.state.events → event ∈ loop.listed ∨
      (loop.ended = false ∧ ∀ other ∈ loop.listed, event.position < other.position)

section Exports

variable {time : Nat} {db db' : AuditDb} {loop : Export}

theorem Follows.effect (follows : Follows loop db) (orderly : Orderly db)
    (effect : Db.Effect auditService (Admits db) time db db') (ordered : Ordered db db') :
    Follows loop db' where
  later := follows.later.effect orderly effect ordered
  listed := follows.listed
  descending := follows.descending
  cursor := follows.cursor
  complete event member meets stored := follows.complete event member meets
    (stored_before orderly.trail effect (follows.later.appended event member) stored)

/-- **One turn.**  A page that goes on where the list ends, of the events that have still
to be listed. -/
theorem Follows.of_page (later : Later loop.first db)
    (listed : ∀ event ∈ loop.listed, event ∈ loop.first.events ∧ loop.query.filters event = true)
    (descending : loop.listed.Pairwise fun event other => other.position < event.position)
    (running : loop.ended = false)
    (continues : ∀ event ∈ loop.page db.state, event ∈ loop.first.events ∧
      ∀ other ∈ loop.listed, event.position < other.position)
    (rest : ∀ event ∈ loop.first.events, loop.query.filters event = true →
      event ∈ db.state.events → event ∈ loop.listed ∨
        AuditRepository.pastCursor db.state loop.cursor event = true) :
    Follows (loop.turn db.state) db := by
  -- a page that is not the last one has an event
  have nonempty : loop.query.limit ≤ (loop.page db.state).length →
      ∃ event, (loop.page db.state).getLast? = some event := by
    intro full
    have positive := loop.query.limit_pos
    have some : loop.page db.state ≠ [] := List.length_pos_iff.mp (by omega)
    exact ⟨_, List.getLast?_eq_some_getLast some⟩
  have afterwards : ∀ event, event ∈ (loop.turn db.state).listed ↔
      event ∈ loop.listed ∨ event ∈ loop.page db.state := by simp
  refine ⟨(loop.turn_first db.state).symm ▸ later, ?_, ?_, ?_, ?_⟩
  · intro event member
    rw [loop.turn_first, loop.turn_query]
    rcases (afterwards event).mp member with old | new
    · exact listed event old
    · exact ⟨(continues event new).1, (AuditRepository.of_mem_listEvents new).2.1⟩
  · rw [loop.turn_listed]
    exact List.pairwise_append.mpr ⟨descending, AuditRepository.descending_listEvents,
      fun event old other new => (continues other new).2 event old⟩
  · intro goesOn
    rcases loop.turn_cases db.state with ⟨-, turned⟩ | ⟨full, turned⟩
    · rw [turned] at goesOn
      cases goesOn
    · obtain ⟨event, last⟩ := nonempty full
      refine ⟨event, ?_, ?_⟩
      · rw [loop.turn_listed, List.getLast?_append, last]
        rfl
      · rw [turned, last]
        rfl
  · intro event member meets stored
    rw [loop.turn_first] at member
    rw [loop.turn_query] at meets
    rcases rest event member meets stored with old | past
    · exact .inl ((afterwards event).mpr (.inl old))
    · have onPage : event ∈ loop.page db.state ∨ (loop.query.limit ≤ (loop.page db.state).length ∧
          ∀ other ∈ loop.page db.state, event.position < other.position) :=
        AuditRepository.mem_listEvents_or_after stored meets past
      rcases onPage with new | ⟨full, after⟩
      · exact .inl ((afterwards event).mpr (.inr new))
      · refine .inr ⟨?_, fun other isThere => ?_⟩
        · rcases loop.turn_cases db.state with ⟨short, -⟩ | ⟨-, turned⟩
          · exact absurd short (Nat.not_lt_of_le full)
          · rw [turned, running]
        · obtain ⟨last, isLast⟩ := nonempty full
          have onPage : last ∈ loop.page db.state := List.mem_of_getLast? isLast
          rcases (afterwards other).mp isThere with old | new
          · exact (after last onPage).trans ((continues last onPage).2 other old)
          · exact after other new

/-- The first page. -/
theorem Follows.start (trail : Trail db) (query : AuditQuery) :
    Follows (.start query db.state) db := by
  refine Follows.of_page (Later.refl trail) ?_ List.Pairwise.nil rfl ?_ ?_
  · intro event member
    cases member
  · intro event member
    refine ⟨(AuditRepository.of_mem_listEvents member).1, fun other isThere => ?_⟩
    cases isThere
  · intro event _ _ _
    exact .inr rfl

/-- The next page. -/
theorem Follows.turn (follows : Follows loop db) (trail : Trail db)
    (running : loop.ended = false) : Follows (loop.turn db.state) db := by
  obtain ⟨last, isLast, cursor⟩ := follows.cursor running
  have lastListed : last ∈ loop.listed := List.mem_of_getLast? isLast
  have inFirst := (follows.listed last lastListed).1
  have bound : ∀ other ∈ loop.listed, last.position ≤ other.position := by
    intro other member
    obtain ⟨before, split⟩ := List.getLast?_eq_some_iff.mp isLast
    have descending := follows.descending
    rw [split] at descending member
    rcases List.mem_append.mp member with earlier | same
    · exact le_of_lt ((List.pairwise_append.mp descending).2.2 other earlier last
        (List.mem_singleton_self _))
    · exact le_of_eq (congrArg AuditEvent.position (List.mem_singleton.mp same).symm)
  -- the row of the cursor is the last event that was listed
  have past : ∀ event, AuditRepository.pastCursor db.state loop.cursor event = true ↔
      last ∈ db.state.events ∧ event.position < last.position := by
    intro event
    simp only [AuditRepository.pastCursor, cursor, Option.any_eq_true, decide_eq_true_eq,
      AuditStore.event?_eq_some]
    constructor
    · rintro ⟨row, ⟨stored, named⟩, before⟩
      obtain ⟨i, txn, found, -, member⟩ := trail.stored row stored
      obtain ⟨j, txn', found', -, member'⟩ := follows.later.appended last inFirst
      obtain ⟨-, rfl⟩ := trail.numbered i j txn txn' found found' row member last member' named
      exact ⟨stored, before⟩
    · rintro ⟨stored, before⟩
      exact ⟨last, ⟨stored, rfl⟩, before⟩
  refine Follows.of_page follows.later follows.listed follows.descending running ?_ ?_
  · intro event member
    obtain ⟨stored, -, isPast⟩ := AuditRepository.of_mem_listEvents member
    obtain ⟨lastStored, before⟩ := (past event).mp isPast
    refine ⟨?_, fun other isThere => before.trans_le (bound other isThere)⟩
    by_contra absent
    exact not_le_of_gt before
      (follows.later.newer last inFirst lastStored event stored absent)
  · intro event member meets stored
    refine (follows.complete event member meets stored).imp_right fun after => ?_
    have before := after.2 last lastListed
    exact (past event).mpr
      ⟨follows.later.oldest last inFirst event member before stored, before⟩

end Exports

/-! ## The result -/

/-- The pages so far list matching events in strictly descending order, and, when the loop
has ended, all that matched at the first page and are still stored. -/
def Export.Complete (loop : Export) (store : AuditStore) : Prop :=
  (∀ event ∈ loop.listed, loop.query.filters event = true) ∧
    (loop.listed.Pairwise fun event other => other.position < event.position) ∧
      (loop.ended = true → ∀ event ∈ loop.first.events, loop.query.filters event = true →
        event ∈ store.events → event ∈ loop.listed)

instance (loop : Export) (store : AuditStore) : Decidable (loop.Complete store) := by
  unfold Export.Complete
  infer_instance

instance decidableNotOlder (world : AuditWorld) (act : AuditAct) :
    Decidable (NotOlder world act) := by
  unfold NotOlder
  split <;> infer_instance

instance decidableInOrder (world : AuditWorld) (act : AuditAct) :
    Decidable (InOrder world act) := by
  unfold InOrder
  split <;> infer_instance

theorem follows_inductive : (auditSystem.restrict InOrder).Inductive fun world =>
    Orderly world.db ∧ ∀ loop ∈ world.exports, Follows loop world.db where
  initial := by
    rintro world rfl
    refine ⟨⟨Trail.initial, ?_, ?_⟩, ?_⟩
    · intro id txn found
      simp at found
    · intro id txn found
      simp at found
    · intro loop member
      cases member
  preserved := by
    rintro world act world' ⟨orderly, follows⟩ step
    obtain ⟨inOrder, step⟩ := System.restrict_step.mp step
    cases effect_of_step step with
    | @onDb time db effect commits =>
        have ordered : Ordered world.db db := by
          intro id txn grown found event member stored isStored
          obtain rfl := commits id grown
          exact inOrder txn found event member stored isStored
        exact ⟨orderly.effect effect ordered, fun loop member =>
          (follows loop member).effect orderly effect ordered⟩
    | started query =>
        refine ⟨orderly, fun loop member => ?_⟩
        rcases List.mem_append.mp member with old | new
        · exact follows loop old
        · exact List.mem_singleton.mp new ▸ Follows.start orderly.trail query
    | @turned i loop found running =>
        refine ⟨orderly, fun other member => ?_⟩
        rcases List.mem_or_eq_of_mem_set member with old | rfl
        · exact follows other old
        · exact (follows loop (List.mem_of_getElem? found)).turn orderly.trail running

/-- **The export is complete.** -/
theorem complete_of_reachable {world : AuditWorld}
    (reachable : (auditSystem.restrict InOrder).Reachable world) :
    ∀ loop ∈ world.exports, loop.Complete world.db.state := by
  intro loop member
  have follows := (follows_inductive.of_reachable reachable).2 loop member
  refine ⟨fun event isListed => (follows.listed event isListed).2, follows.descending, ?_⟩
  intro ended event isFirst meets stored
  refine (follows.complete event isFirst meets stored).resolve_right fun missing => ?_
  rw [ended] at missing
  cases missing.1

/-- An event. -/
def logged (auditEventId occurredAt : Nat) : AuditEvent where
  auditEventId := auditEventId
  occurredAt := occurredAt
  source := .api
  eventAction := .requestCompleted
  eventOutcome := .succeeded

/-- An export of all events, in pages of one. -/
def everything : AuditQuery := { since := 0, limit := 1 }

/-- Three events of one instant; the oldest is purged between two pages. -/
def purged : List AuditAct :=
  [.onDb (.begin (.append [logged 1 7, logged 2 7, logged 3 7])), .onDb (.perform 0),
    .onDb (.perform 0), .onDb (.perform 0), .onDb (.commit 0), .exportEvents everything,
    .onDb (.begin (.purgeBatch 8 1 true)), .onDb (.perform 1), .onDb (.perform 1),
    .onDb (.commit 1), .turn 0, .turn 0]

theorem complete_of_reachable_purged : ∃ world,
    auditSystem.exec { db := { state := .start }, exports := [] } purged = some world ∧
      (∀ loop ∈ world.exports, loop.ended = true ∧ loop.listed = [logged 3 7, logged 2 7]) ∧
        ∀ loop ∈ world.exports, loop.Complete world.db.state := by
  have ran : (auditSystem.exec { db := { state := .start }, exports := [] } purged).any
      (fun world => decide (∀ loop ∈ world.exports, loop.ended = true ∧
        loop.listed = [logged 3 7, logged 2 7])) = true := by
    decide +kernel
  have along : auditSystem.Along InOrder { db := { state := .start }, exports := [] } purged := by
    decide +kernel
  obtain ⟨world, done, listed⟩ := (Option.any_eq_true _ _).mp ran
  exact ⟨world, done, of_decide_eq_true listed,
    complete_of_reachable ⟨_, rfl, System.leads_restrict_of_exec done along⟩⟩

/-- The second event is inserted first and commits last, while a purge of the first one is
under way. -/
def overtaken : List AuditAct :=
  [.onDb (.begin (.append [logged 2 7])), .onDb (.perform 0), .onDb (.commit 0),
    .onDb (.begin (.purgeBatch 8 1 true)), .onDb (.perform 1), .onDb (.perform 1),
    .onDb (.begin (.append [logged 1 7])), .onDb (.perform 2), .onDb (.commit 2),
    .exportEvents everything, .onDb (.commit 1), .turn 0]

/-- An event that is still stored is not listed. -/
theorem exportIncomplete_fails : ¬ ∀ world, (auditSystem.restrict NotOlder).Reachable world →
    ∀ loop ∈ world.exports, loop.Complete world.db.state := by
  intro complete
  have ran : (auditSystem.exec { db := { state := .start }, exports := [] } overtaken).any
      (fun world => decide (∃ loop ∈ world.exports, ¬ loop.Complete world.db.state)) = true := by
    decide +kernel
  have along : auditSystem.Along NotOlder { db := { state := .start }, exports := [] }
      overtaken := by
    decide +kernel
  obtain ⟨world, done, incomplete⟩ := (Option.any_eq_true _ _).mp ran
  obtain ⟨loop, member, missing⟩ := of_decide_eq_true incomplete
  exact missing (complete world ⟨_, rfl, System.leads_restrict_of_exec done along⟩ loop member)

end OpsComposer.AuditTrail
