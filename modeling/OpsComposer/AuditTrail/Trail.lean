import OpsComposer.AuditTrail.Events
import OpsComposer.Foundations.Footprints

/-!
# What happens to the rows of the trail

A transaction that appends only adds events, and one that purges only deletes events:

* `Trail` — an event is stored only after the transaction that appended it has
  committed, and its identifier is not given twice;
* `AuditRepository.expired_closed` — a purge deletes with an event every older one that
  it sees;
* `stays_or_erased`, `of_mem_events_view` — what a commit does to the stored events.
-/

set_option autoImplicit false

namespace OpsComposer.AuditTrail

open Domain Foundations RowStore

/-! ## Stored events -/

namespace AuditStore

variable {store store' : AuditStore} {event event' : AuditEvent}

theorem mem_events : event ∈ store.events ↔
    RowStore.lookup store (AuditKey.event event.auditEventId) = some (.event event) := by
  rw [show AuditKey.event event.auditEventId = RowStore.key AuditStore (.event event) from rfl,
    ← RowStore.mem_rows, events, List.mem_filterMap]
  constructor
  · rintro ⟨row, member, shown⟩
    obtain rfl := (AuditRow.events.unwrap_eq_some row event).mp shown
    exact member
  · intro member
    exact ⟨.event event, member, rfl⟩

theorem eq_of_auditEventId (member : event ∈ store.events) (member' : event' ∈ store.events)
    (same : event.auditEventId = event'.auditEventId) : event = event' := by
  have found := mem_events.mp member
  rw [same, mem_events.mp member'] at found
  exact (AuditRow.event.inj (Option.some.inj found)).symm

theorem event?_eq_some {auditEventId : Nat} : store.event? auditEventId = some event ↔
    event ∈ store.events ∧ event.auditEventId = auditEventId := by
  rw [event?, Option.bind_eq_some_iff]
  constructor
  · rintro ⟨row, found, shown⟩
    obtain rfl := (AuditRow.events.unwrap_eq_some row event).mp shown
    obtain rfl : event.auditEventId = auditEventId := by
      simpa [AuditRow.key, AuditRow.events] using Table.key_of_lookup found
    exact ⟨mem_events.mpr found, rfl⟩
  · rintro ⟨member, rfl⟩
    exact ⟨.event event, mem_events.mp member, rfl⟩

theorem nodup_events (store : AuditStore) : store.events.Nodup := by
  refine store.nodup_rows.filterMap ?_
  intro row row' event shown shown'
  exact ((AuditRow.events.unwrap_eq_some row event).mp shown).trans
    ((AuditRow.events.unwrap_eq_some row' event).mp shown').symm

/-- Two stored events do not have one position. -/
theorem eq_of_position (member : event ∈ store.events) (member' : event' ∈ store.events)
    (same : event.position = event'.position) : event = event' :=
  eq_of_auditEventId member member' (congrArg (fun p => (ofLex p).2) same)

end AuditStore

theorem occurredAt_le {event other : AuditEvent} (before : event.position ≤ other.position) :
    event.occurredAt ≤ other.occurredAt := by
  rcases Prod.Lex.le_iff.mp before with earlier | ⟨same, -⟩
  · exact Nat.le_of_lt earlier
  · exact Nat.le_of_eq same

/-! ## Queries -/

namespace AuditRepository

instance : Std.Total fun event other : AuditEvent => event.position ≤ other.position :=
  ⟨fun _ _ => le_total _ _⟩

instance : IsTrans AuditEvent fun event other => event.position ≤ other.position :=
  ⟨fun _ _ _ => le_trans⟩

instance : Std.Total fun event other : AuditEvent => other.position ≤ event.position :=
  ⟨fun _ _ => le_total _ _⟩

instance : IsTrans AuditEvent fun event other => other.position ≤ event.position :=
  ⟨fun _ _ _ first second => le_trans second first⟩

variable {store : AuditStore} {query : AuditQuery} {event other : AuditEvent}

theorem of_mem_listEvents (member : event ∈ listEvents store query) :
    event ∈ store.events ∧ query.filters event = true ∧
      pastCursor store query.beforeId event = true := by
  simpa using mem_of_mem_orderedLimit member

/-- A page is in strictly descending order. -/
theorem descending_listEvents :
    (listEvents store query).Pairwise fun event other => other.position < event.position := by
  have sorted : (listEvents store query).Pairwise fun event other =>
      other.position ≤ event.position := pairwise_orderedLimit
  have apart : (listEvents store query).Nodup :=
    nodup_orderedLimit (store.nodup_events.filter _)
  refine (sorted.and apart).imp_of_mem ?_
  rintro a b first second ⟨le, ne⟩
  refine lt_of_le_of_ne le fun same => ne ?_
  exact AuditStore.eq_of_position (of_mem_listEvents first).1 (of_mem_listEvents second).1 same.symm

/-- What a page leaves out comes after all that it lists. -/
theorem mem_listEvents_or_after (member : event ∈ store.events)
    (meets : query.filters event = true) (past : pastCursor store query.beforeId event = true) :
    event ∈ listEvents store query ∨ (query.limit ≤ (listEvents store query).length ∧
      ∀ listed ∈ listEvents store query, event.position < listed.position) := by
  have among : event ∈ store.events.filter fun event =>
      query.filters event && pastCursor store query.beforeId event := by
    simp [member, meets, past]
  by_cases isListed : event ∈ listEvents store query
  · exact .inl isListed
  · refine .inr ⟨?_, fun listed isThere => ?_⟩
    · by_contra short
      exact isListed (mem_orderedLimit_of_short (Nat.lt_of_not_le short) among)
    · by_contra later
      refine isListed (mem_orderedLimit_of_before isThere among ?_)
      intro before
      refine later (lt_of_le_of_ne before fun same => isListed ?_)
      rwa [AuditStore.eq_of_position member (of_mem_listEvents isThere).1 same]

theorem of_mem_expired {cutoff batchSize : Nat} (member : event ∈ expired store cutoff batchSize) :
    event ∈ store.events ∧ event.occurredAt < cutoff := by
  simpa using mem_of_mem_orderedLimit member

/-- **A purge begins with the oldest events.** -/
theorem expired_closed {cutoff batchSize : Nat}
    (member : event ∈ expired store cutoff batchSize) (stored : other ∈ store.events)
    (older : other.position < event.position) : other ∈ expired store cutoff batchSize := by
  have before := occurredAt_le (le_of_lt older)
  have recent := (of_mem_expired member).2
  refine mem_orderedLimit_of_before member ?_ (not_le_of_gt older)
  simpa using And.intro stored (Nat.lt_of_le_of_lt before recent)

end AuditRepository

/-! ## What a transaction writes -/

/-- The statements of a call. -/
def AuditCall.Allows : AuditCall → AuditStatement → Prop
  | .append events, .append event => event ∈ events
  | .purgeBatch _ _ _, .tryCleanupLock => True
  | .purgeBatch cutoff batchSize _, .deleteExpired cutoff' batchSize' =>
      cutoff' = cutoff ∧ batchSize' = batchSize
  | _, _ => False

theorem issues_append {events : List AuditEvent} {allowed : AuditStatement → Prop}
    (each : ∀ event ∈ events, allowed (.append event)) :
    (AuditRepository.append events).Issues allowed := by
  induction events with
  | nil => trivial
  | cons event events ih =>
      exact ⟨each event (List.mem_cons_self ..),
        fun _ => ih fun other member => each other (List.mem_cons_of_mem _ member)⟩

theorem issues_program (call : AuditCall) : call.program.Issues call.Allows := by
  cases call with
  | append events => exact issues_append fun _ member => member
  | purgeBatch cutoff batchSize acquired =>
      cases acquired with
      | false => trivial
      | true => exact ⟨trivial, fun _ => ⟨⟨rfl, rfl⟩, fun _ => trivial⟩⟩

/-- What a transaction that serves a call writes. -/
inductive AuditCall.Writes (call : AuditCall) : Write AuditKey AuditRow → Prop where
  | put {event : AuditEvent} (member : event ∈ call.events) : Writes call (.put (.event event))
  | lock (purges : call.events = []) : Writes call (.put .cleanupLock)
  | erase {auditEventId : Nat} (purges : call.events = []) :
      Writes call (.erase (.event auditEventId))

theorem writes_of_makes {call : AuditCall} {statement : AuditStatement}
    {write : Write AuditKey AuditRow} (makes : auditService.Makes statement write)
    (allows : call.Allows statement) : call.Writes write := by
  obtain ⟨snapshot, current, shown, writes, done, member⟩ := makes
  cases statement with
  | append event =>
      cases call with
      | purgeBatch _ _ _ => cases allows
      | append events =>
          rcases (Command.perform_insert done).2 with ⟨-, nothing, -⟩ | ⟨-, -, rfl⟩
          · cases nothing
          · obtain rfl := List.mem_singleton.mp member
            exact .put allows
  | tryCleanupLock =>
      obtain ⟨-, rfl⟩ := Command.perform_update done
      simp only [List.map_id, List.mem_map] at member
      obtain ⟨row, isFound, rfl⟩ := member
      have isLock := (Command.mem_found.mp isFound).2.1
      cases row with
      | event _ => cases isLock
      | cleanupLock =>
          cases call with
          | append _ => cases allows
          | purgeBatch _ _ _ => exact .lock rfl
  | deleteExpired cutoff batchSize =>
      obtain ⟨rfl, rfl⟩ := Command.perform_delete done
      obtain ⟨row, isFound, rfl⟩ := List.mem_map.mp member
      obtain ⟨event, rfl, -⟩ := AuditRow.events.meets_iff.mp (Command.mem_found.mp isFound).2.1
      cases call with
      | append _ => cases allows
      | purgeBatch _ _ _ => exact .erase rfl

/-! ## The trail in every run -/

/-- What a log and the statement after it are made of. -/
abbrev AuditPoint (call : AuditCall) (log : List (Event AuditStatement AuditRow))
    (program : AuditProgram) : Prop :=
  (∀ statement rows seen, .ran statement rows seen ∈ log → call.Allows statement) ∧
    ∀ statement ∈ program.next?, call.Allows statement

/-- A committed transaction has appended the event. -/
def Appended (db : AuditDb) (event : AuditEvent) : Prop :=
  ∃ (id : Nat) (txn : AuditTxn), db.txns[id]? = some txn ∧ txn.status = .committed ∧
    event ∈ txn.call.events

/-- A call may begin: its events have identifiers of their own. -/
def Admits (db : AuditDb) (call : AuditCall) : Prop :=
  (call.events.map (·.auditEventId)).Nodup ∧
    ∀ txn ∈ db.txns, ∀ event ∈ txn.call.events, ∀ other ∈ call.events,
      event.auditEventId ≠ other.auditEventId

/-- What the transactions of the trail keep, whatever an export reads. -/
structure Trail (db : AuditDb) : Prop where
  written : db.Written auditService
  points : db.AtPoints (fun _ _ => True) AuditPoint
  /-- No identifier is given twice. -/
  numbered : ∀ (i j : Nat) (txn txn' : AuditTxn), db.txns[i]? = some txn →
    db.txns[j]? = some txn' → ∀ event ∈ txn.call.events, ∀ event' ∈ txn'.call.events,
      event.auditEventId = event'.auditEventId → i = j ∧ event = event'
  stored : ∀ event ∈ db.state.events, Appended db event
  /-- Only what was stored is deleted. -/
  erased : ∀ (id : Nat) (txn : AuditTxn), db.txns[id]? = some txn → ∀ auditEventId,
    .erase (.event auditEventId) ∈ txn.writes →
      ∃ event, Appended db event ∧ event.auditEventId = auditEventId

section View

variable {db : AuditDb} {id : Nat} {txn : AuditTxn} {event : AuditEvent}

theorem Trail.writes (trail : Trail db) (found : db.txns[id]? = some txn)
    {write : Write AuditKey AuditRow} (member : write ∈ txn.writes) : txn.call.Writes write := by
  obtain ⟨statement, rows, seen, ran, makes⟩ := trail.written id txn found write member
  exact writes_of_makes makes ((trail.points id txn found).here.1 statement rows seen ran)

/-- An unfinished transaction has appended nothing. -/
theorem Trail.not_appended (trail : Trail db) (found : db.txns[id]? = some txn)
    (live : txn.live = true) (member : event ∈ txn.call.events) {event' : AuditEvent}
    (appended : Appended db event') : event.auditEventId ≠ event'.auditEventId := by
  obtain ⟨j, other, found', committed, member'⟩ := appended
  intro same
  obtain ⟨rfl, -⟩ := trail.numbered id j txn other found found' event member event' member' same
  obtain rfl : txn = other := Option.some.inj (found.symm.trans found')
  simp [Txn.live, committed] at live

variable {store : AuditStore}

/-- What a transaction sees was stored, or it has appended it. -/
theorem Trail.of_mem_events_view (trail : Trail db) (found : db.txns[id]? = some txn)
    (shown : event ∈ (txn.view store).events) : event ∈ store.events ∨ event ∈ txn.call.events := by
  rcases lookup_applyAll_cases (AuditStore.mem_events.mp shown) with ⟨-, old⟩ | ⟨-, put⟩
  · exact .inl (AuditStore.mem_events.mpr old)
  · cases trail.writes found put with
    | put member => exact .inr member

/-- What a transaction has deleted it does not see. -/
theorem Trail.not_mem_of_erase (trail : Trail db) (found : db.txns[id]? = some txn)
    (erase : .erase (.event event.auditEventId) ∈ txn.writes) :
    event ∉ (txn.view store).events := by
  intro shown
  have purges : txn.call.events = [] := by
    cases trail.writes found erase with
    | erase purges => exact purges
  have touches : AuditKey.event event.auditEventId ∈ txn.holds :=
    mem_touched.mpr ⟨_, erase, rfl⟩
  have gone : RowStore.lookup (txn.view store) (AuditKey.event event.auditEventId) = none := by
    refine lookup_applyAll_uniform store touches fun write member same => ?_
    cases trail.writes found member with
    | put isOwn => exact absurd (purges ▸ isOwn) List.not_mem_nil
    | lock _ => cases same
    | erase _ => rfl
  rw [AuditStore.mem_events.mp shown] at gone
  cases gone

/-- What is stored an unfinished transaction sees, unless it has deleted it. -/
theorem Trail.stays_or_erased (trail : Trail db) (found : db.txns[id]? = some txn)
    (live : txn.live = true) (stored : event ∈ store.events)
    (appended : Appended db event) : event ∈ (txn.view store).events ∨
      .erase (.event event.auditEventId) ∈ txn.writes := by
  by_cases touches : AuditKey.event event.auditEventId ∈ txn.holds
  · obtain ⟨write, member, same⟩ := mem_touched.mp touches
    cases trail.writes found member with
    | @put other isOwn =>
        have named : other.auditEventId = event.auditEventId := AuditKey.event.inj same
        exact absurd named (trail.not_appended found live isOwn appended)
    | lock _ => cases same
    | @erase auditEventId _ =>
        obtain rfl : auditEventId = event.auditEventId := AuditKey.event.inj same
        exact .inr member
  · left
    rw [AuditStore.mem_events, Db.view_of_not_held store touches]
    exact AuditStore.mem_events.mp stored

end View

/-! ## Steps -/

section Step

variable {time : Nat} {db db' : AuditDb}

theorem Trail.initial : Trail { state := .start } where
  written _ _ found := by simp at found
  points _ _ found := by simp at found
  numbered _ _ _ _ found := by simp at found
  stored event member := by
    have found := AuditStore.mem_events.mp member
    cases found
  erased _ _ found := by simp at found

/-- What has been appended stays so. -/
theorem Appended.effect {admits : AuditCall → Prop}
    (effect : Db.Effect auditService admits time db db') {event : AuditEvent}
    (appended : Appended db event) : Appended db' event := by
  obtain ⟨j, txn, present, committed, member⟩ := appended
  exact ⟨j, txn, effect.committed_stays present committed, committed, member⟩

/-- Calls stay what they are. -/
theorem numbered_effect (trail : Trail db) (effect : Db.Effect auditService (Admits db) time db db')
    (i j : Nat) (txn txn' : AuditTxn) (found : db'.txns[i]? = some txn)
    (found' : db'.txns[j]? = some txn') : ∀ event ∈ txn.call.events, ∀ event' ∈ txn'.call.events,
      event.auditEventId = event'.auditEventId → i = j ∧ event = event' := by
  intro event member event' member' same
  rcases effect.origin found with ⟨old, isOld, call⟩ | ⟨rfl, admitted⟩
  · rcases effect.origin found' with ⟨old', isOld', call'⟩ | ⟨rfl, admitted'⟩
    · exact trail.numbered i j old old' isOld isOld' event (call ▸ member) event' (call' ▸ member')
        same
    · have apart := admitted'.2 old (List.mem_of_getElem? isOld) event (call ▸ member) event' member'
      exact absurd same apart
  · rcases effect.origin found' with ⟨old', isOld', call'⟩ | ⟨rfl, admitted'⟩
    · have apart := admitted.2 old' (List.mem_of_getElem? isOld') event' (call' ▸ member') event member
      exact absurd same.symm apart
    · obtain rfl : txn = txn' := Option.some.inj (found.symm.trans found')
      exact ⟨rfl, List.inj_on_of_nodup_map admitted.1 member member' same⟩

end Step

/-- **A purge** deletes the expired events of its snapshot that are still there. -/
theorem mem_erased {db : AuditDb} {id : Nat} {txn : AuditTxn} {cutoff batchSize : Nat}
    {shown : List AuditRow} {writes : List (Write AuditKey AuditRow)}
    (result : db.performed auditService id txn (.deleteExpired cutoff batchSize) =
      some (some (shown, writes))) {event : AuditEvent}
    (stored : event ∈ (txn.view db.state).events) :
    .erase (.event event.auditEventId) ∈ writes ↔
      event ∈ AuditRepository.expired (txn.view (db.snapshotFor txn).state) cutoff batchSize := by
  obtain ⟨rfl, rfl⟩ := Command.perform_delete (Db.of_performed result).2
  rw [List.mem_map]
  constructor
  · rintro ⟨row, isFound, same⟩
    obtain ⟨member, holds, -⟩ := Command.mem_found.mp isFound
    obtain ⟨other, rfl, isExpired⟩ := AuditRow.events.meets_iff.mp holds
    have named : other.auditEventId = event.auditEventId := AuditKey.event.inj (Write.erase.inj same)
    have isStored : other ∈ (txn.view db.state).events :=
      AuditStore.mem_events.mpr (RowStore.lookup_of_mem member)
    obtain rfl := AuditStore.eq_of_auditEventId isStored stored named
    exact of_decide_eq_true isExpired
  · intro isExpired
    refine ⟨.event event, Command.mem_found.mpr ⟨?_, ?_, .event event, ?_, ?_⟩, rfl⟩
    · exact RowStore.mem_of_lookup (AuditStore.mem_events.mp stored)
    · exact AuditRow.events.meets_iff.mpr ⟨event, rfl, decide_eq_true isExpired⟩
    · exact AuditStore.mem_events.mp (AuditRepository.of_mem_expired isExpired).1
    · exact AuditRow.events.meets_iff.mpr ⟨event, rfl, decide_eq_true isExpired⟩

/-- Only a purge deletes, and only what the transaction sees. -/
theorem purge_of_erase {db : AuditDb} {id : Nat} {txn : AuditTxn} {statement : AuditStatement}
    {shown : List AuditRow} {writes : List (Write AuditKey AuditRow)}
    (result : db.performed auditService id txn statement = some (some (shown, writes)))
    {auditEventId : Nat} (erase : .erase (.event auditEventId) ∈ writes) :
    (∃ cutoff batchSize, statement = .deleteExpired cutoff batchSize) ∧
      ∃ event ∈ (txn.view db.state).events, event.auditEventId = auditEventId := by
  have done := (Db.of_performed result).2
  cases statement with
  | append event =>
      rcases (Command.perform_insert done).2 with ⟨-, nothing, -⟩ | ⟨-, -, rfl⟩
      · cases nothing
      · simp at erase
  | tryCleanupLock =>
      obtain ⟨-, rfl⟩ := Command.perform_update done
      simp at erase
  | deleteExpired cutoff batchSize =>
      obtain ⟨rfl, rfl⟩ := Command.perform_delete done
      obtain ⟨row, isFound, same⟩ := List.mem_map.mp erase
      obtain ⟨member, holds, -⟩ := Command.mem_found.mp isFound
      obtain ⟨event, rfl, -⟩ := AuditRow.events.meets_iff.mp holds
      exact ⟨⟨cutoff, batchSize, rfl⟩, event,
        AuditStore.mem_events.mpr (RowStore.lookup_of_mem member),
        AuditKey.event.inj (Write.erase.inj same)⟩

theorem Trail.effect {time : Nat} {db db' : AuditDb} (trail : Trail db)
    (effect : Db.Effect auditService (Admits db) time db db') : Trail db' where
  written := trail.written.effect effect
  points := trail.points.effect (fun _ _ _ _ _ _ => trivial)
    (fun call => (issues_program call).everywhere (by simp)) effect
  numbered := numbered_effect trail effect
  stored event member := by
    have stays : ∀ other, Appended db other → Appended db' other := fun _ => Appended.effect effect
    cases effect with
    | begun _ | moved _ _ => exact stays event (trail.stored event member)
    | @committed id txn _ found _ _ =>
        rcases trail.of_mem_events_view found member with old | isOwn
        · exact stays event (trail.stored event old)
        · exact ⟨id, { txn with status := .committed },
            (Db.getElem?_set_of_found found).trans (if_pos rfl), rfl, isOwn⟩
  erased j t present auditEventId erase := by
    have stays : (∃ event, Appended db event ∧ event.auditEventId = auditEventId) →
        ∃ event, Appended db' event ∧ event.auditEventId = auditEventId := by
      rintro ⟨event, appended, named⟩
      exact ⟨event, appended.effect effect, named⟩
    cases effect with
    | begun _ =>
        rcases Db.of_getElem?_append present with ⟨-, rfl⟩ | old
        · cases erase
        · exact stays (trail.erased j t old auditEventId erase)
    | @moved id txn txn' found moves =>
        rcases Db.of_getElem?_set found present with ⟨rfl, rfl⟩ | ⟨-, old⟩
        · have before := trail.erased id txn found auditEventId
          cases moves with
          | clock _ _ | snapshot _ _ _ | checked _ _ _ _ _ | aborted _ => exact stays (before erase)
          | performed _ stands result =>
              rcases List.mem_append.mp erase with earlier | now
              · exact stays (before earlier)
              · obtain ⟨⟨cutoff, batchSize, rfl⟩, event, shown, named⟩ := purge_of_erase result now
                rcases trail.of_mem_events_view found shown with isStored | isOwn
                · exact stays ⟨event, trail.stored event isStored, named⟩
                · have allows := (trail.points id txn found).here.2 (.deleteExpired cutoff batchSize)
                    (by rw [stands]; rfl)
                  cases serves : txn.call with
                  | append events => rw [serves] at allows; cases allows
                  | purgeBatch _ _ _ => rw [serves] at isOwn; cases isOwn
        · exact stays (trail.erased j t old auditEventId erase)
    | @committed id txn _ found _ _ =>
        rcases Db.of_getElem?_set found present with ⟨rfl, rfl⟩ | ⟨-, old⟩
        · exact stays (trail.erased id txn found auditEventId erase)
        · exact stays (trail.erased j t old auditEventId erase)

end OpsComposer.AuditTrail
