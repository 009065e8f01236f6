import OpsComposer.EventLog.GapFree

/-!
# Where an event stream ends

A stream reads events, then the status of the run, and ends when the run has ended
and there were no events.  The two reads are two transactions, in this order.  What
is committed between them, such as the `run_finished` event that is committed with
the final status itself, is never looked for: the stream ends on the empty batch
that it read before.

* `owed` — the events committed no later than the transaction that ended the run;
* `Late` — one of them was committed after the last read of events;
* `complete_iff` — an ended stream is complete exactly when none was;
* `complete_fails` — the interleaving that shows the defect.
-/

set_option autoImplicit false

namespace OpsComposer.EventLog

open Domain Foundations Repositories Services

/-! ## The property -/

/-- The events of a run in a snapshot, in order. -/
def Snapshot.log (snapshot : Snapshot) (runId : Uuid) : List RunEvent :=
  inOrder RunEvent.sequence (snapshot.events.select fun event => event.runId = runId)

/-- The run has ended. -/
abbrev Snapshot.Ended (snapshot : Snapshot) (runId : Uuid) : Prop :=
  ∃ run ∈ snapshot.runs.lookup runId, run.status.terminal = true

/-- The events committed no later than the transaction that ended the run. -/
def owed (history : List Snapshot) (runId : Uuid) : List RunEvent :=
  match history.find? fun snapshot => decide (snapshot.Ended runId) with
  | none => []
  | some snapshot => snapshot.log runId

/-- The stream has delivered every event it owes past its start, each once and in
order. -/
structure Complete (world : EventWorld) (stream : Stream) : Prop where
  delivered : ((owed world.history stream.runId).filter fun event =>
    stream.reader.start < event.sequence) <+: stream.reader.delivered
  once : stream.reader.delivered.Pairwise fun a b => a.sequence < b.sequence

/-- An event it owes was not there yet at its last read of events. -/
abbrev Late (world : EventWorld) (stream : Stream) : Prop :=
  ∃ event ∈ owed world.history stream.runId, stream.reader.start < event.sequence ∧
    (stream.seen.events.lookup event.runEventId).isNone = true

/-! ## Earlier snapshots -/

theorem mem_snapshotLog {snapshot : Snapshot} {runId : Uuid} {event : RunEvent} :
    event ∈ snapshot.log runId ↔
      snapshot.events.lookup event.runEventId = some event ∧ event.runId = runId := by
  rw [Snapshot.log, mem_inOrder, Table.mem_select]

/-- A consistent snapshot whose events are all still there. -/
structure Earlier (snapshot : Snapshot) (world : EventWorld) : Prop where
  sequenced : ∀ runId, Sequenced RunEvent.sequence (snapshot.log runId)
  kept : ∀ id event, snapshot.events.lookup id = some event →
    world.database.entries.lookup id = some event

variable {world : EventWorld} {stream : Stream}

theorem Earlier.now (consistent : world.database.Consistent) :
    Earlier world.snapshot world where
  sequenced := consistent.sequenced_log
  kept _ _ := id

theorem Earlier.step {next : EventWorld} {snapshot : Snapshot}
    (earlier : Earlier snapshot world) (advances : Advances world.database next.database) :
    Earlier snapshot next where
  sequenced := earlier.sequenced
  kept id event found := advances.kept id event (earlier.kept id event found)

/-- Of two earlier snapshots, one with an event of the other has all before it. -/
theorem Earlier.log_prefix {older newer : Snapshot} (consistent : world.database.Consistent)
    (earlier : Earlier older world) (earlier' : Earlier newer world) (runId : Uuid) :
    older.log runId <+: newer.log runId ∨ newer.log runId <+: older.log runId := by
  have inWorld : ∀ {snapshot : Snapshot}, Earlier snapshot world →
      snapshot.log runId <+: world.log runId := by
    intro snapshot before
    refine (before.sequenced runId).prefix_of_subset (consistent.sequenced_log runId) ?_
    intro event member
    obtain ⟨found, ofRun⟩ := mem_snapshotLog.mp member
    exact mem_log.mpr ⟨before.kept _ _ found, ofRun⟩
  exact List.prefix_or_prefix_of_prefix (inWorld earlier) (inWorld earlier')

/-! ## Streams -/

/-- A stream has delivered what there was at its last read of events; after an empty
batch, all of it. -/
structure StreamOk (world : EventWorld) (stream : Stream) : Prop where
  earlier : Earlier stream.seen world
  follows : stream.reader.Follows (stream.seen.log stream.runId)
  caughtUp : stream.stage = .checking true ∨ stream.stage = .ended →
    (stream.seen.log stream.runId).length ≤ stream.reader.cursor

theorem StreamOk.step {next : EventWorld} (ok : StreamOk world stream)
    (advances : Advances world.database next.database) : StreamOk next stream where
  earlier := ok.earlier.step advances
  follows := ok.follows
  caughtUp := ok.caughtUp

theorem StreamOk.pollEvents (consistent : world.database.Consistent) (ok : StreamOk world stream) :
    StreamOk world (world.pollEvents stream) := by
  unfold EventWorld.pollEvents
  split
  · exact ⟨ok.earlier, ok.follows, by rintro (checking | ended) <;> contradiction⟩
  next events answered =>
    obtain rfl := eventsAfter_ok consistent answered
    have sequenced : Sequenced RunEvent.sequence (world.log stream.runId) :=
      consistent.sequenced_log stream.runId
    have older : stream.seen.log stream.runId <+: world.log stream.runId := by
      refine (ok.earlier.sequenced _).prefix_of_subset sequenced fun event member => ?_
      obtain ⟨found, ofRun⟩ := mem_snapshotLog.mp member
      exact mem_log.mpr ⟨ok.earlier.kept _ _ found, ofRun⟩
    refine ⟨.now consistent, (ok.follows.grow older).deliver sequenced 500, ?_⟩
    rintro (quiet | ended)
    · have empty : ((world.log stream.runId).drop stream.reader.cursor).take 500 = [] := by
        simpa using quiet
      have past : (world.log stream.runId).length ≤ stream.reader.cursor := by
        simpa using List.take_eq_nil_iff.mp empty
      rw [Reader.cursor_deliver sequenced, empty]
      exact past
    · cases ended

theorem StreamOk.pollStatus {quiet : Bool}
    (ok : StreamOk world stream) (checking : stream.stage = .checking quiet) :
    StreamOk world (world.pollStatus stream quiet) := by
  unfold EventWorld.pollStatus
  split
  · exact ⟨ok.earlier, ok.follows, by rintro (checking | ended) <;> contradiction⟩
  · refine ⟨ok.earlier, ok.follows, ?_⟩
    rintro (again | ended)
    · split at again <;> cases again
    · split at ended
      next both =>
        have isQuiet := (Bool.and_eq_true_iff.mp both).2
        exact ok.caughtUp (.inl (checking.trans (congrArg _ isQuiet)))
      · cases ended

/-- What is known of history and of the streams. -/
structure StreamInv (world : EventWorld) : Prop where
  consistent : world.database.Consistent
  history : ∀ snapshot ∈ world.history, Earlier snapshot world
  streams : ∀ streamId stream, world.streams.lookup streamId = some stream → StreamOk world stream

theorem streamInv_inductive : eventLog.Inductive StreamInv where
  initial := by
    rintro world rfl
    exact ⟨Database.consistent_empty, fun _ member => (List.not_mem_nil member).elim,
      fun _ _ found => by cases found⟩
  preserved world action next inv step := by
    have effect := effect_of_step step
    have advances := advances_of_effect effect
    have consistent := advances.consistent inv.consistent
    have before : ∀ snapshot ∈ world.history, Earlier snapshot next :=
      fun snapshot member => (inv.history snapshot member).step advances
    have others : ∀ streamId stream, world.streams.lookup streamId = some stream →
        StreamOk next stream := fun streamId stream found =>
      (inv.streams streamId stream found).step advances
    refine ⟨consistent, ?_, ?_⟩
    · cases effect with
      | moves _ _ _ _ _ history => rwa [history]
      | commits _ _ _ history =>
          rw [history]
          intro snapshot member
          rcases List.mem_append.mp member with old | isNew
          · exact before snapshot old
          · rw [List.mem_singleton.mp isNew]
            exact .now consistent
      | _ => exact before
    · cases effect with
      | moves _ _ _ _ streams | commits _ _ streams => rwa [streams]
      | connects free =>
          intro streamId stream found
          rcases Table.lookup_put_eq_some.mp found with ⟨_, rfl⟩ | ⟨_, held⟩
          · refine ⟨.now consistent, Reader.follows_at _ _, ?_⟩
            rintro (checking | ended) <;> contradiction
          · exact others streamId stream held
      | polls held =>
          intro streamId stream found
          rcases Table.lookup_put_eq_some.mp found with ⟨_, rfl⟩ | ⟨_, held'⟩
          · exact ((inv.streams _ _ held).pollEvents inv.consistent).step advances
          · exact others streamId stream held'
      | checks held checking =>
          intro streamId stream found
          rcases Table.lookup_put_eq_some.mp found with ⟨_, rfl⟩ | ⟨_, held'⟩
          · exact ((inv.streams _ _ held).pollStatus checking).step advances
          · exact others streamId stream held'
      | disconnects held =>
          intro streamId stream found
          rcases Table.lookup_put_eq_some.mp found with ⟨_, rfl⟩ | ⟨_, held'⟩
          · have ok := others _ _ held
            exact ⟨ok.earlier, ok.follows, by rintro (checking | ended) <;> contradiction⟩
          · exact others streamId stream held'
      | _ => exact others

/-! ## Ended streams -/

section Ended

variable {world : EventWorld} {stream : Stream}

/-- An ended stream has delivered what there was at its last read of events. -/
theorem delivered_of_ended (ok : StreamOk world stream) (ended : stream.stage = .ended) :
    stream.reader.delivered = (stream.seen.log stream.runId).drop stream.reader.start := by
  rw [ok.follows.delivered, List.take_of_length_le (ok.caughtUp (.inr ended))]

/-- An event of an earlier snapshot that was there at the last read of events. -/
theorem mem_seen {snapshot : Snapshot} (earlier : Earlier snapshot world)
    (ok : StreamOk world stream) {event : RunEvent} (member : event ∈ snapshot.log stream.runId)
    (present : (stream.seen.events.lookup event.runEventId).isNone = false) :
    event ∈ stream.seen.log stream.runId := by
  obtain ⟨found, ofRun⟩ := mem_snapshotLog.mp member
  cases seen : stream.seen.events.lookup event.runEventId with
  | none =>
      rw [seen] at present
      cases present
  | some other =>
      have same := ok.earlier.kept _ other seen
      rw [earlier.kept _ event found] at same
      cases same
      exact mem_snapshotLog.mpr ⟨seen, ofRun⟩

/-- Of the log of an earlier snapshot, the part past the start is a prefix of the
delivered part when no event of it came late. -/
theorem drop_prefix_of_seen {snapshot : Snapshot} (inv : StreamInv world)
    (earlier : Earlier snapshot world) (ok : StreamOk world stream)
    (inTime : ∀ event ∈ snapshot.log stream.runId, stream.reader.start < event.sequence →
      event ∈ stream.seen.log stream.runId) :
    (snapshot.log stream.runId).drop stream.reader.start <+:
      (stream.seen.log stream.runId).drop stream.reader.start := by
  have sequenced := earlier.sequenced stream.runId
  rcases earlier.log_prefix inv.consistent ok.earlier stream.runId with ⟨rest, same⟩ | longer
  · rw [← same, List.drop_append]
    exact List.prefix_append _ _
  · rcases Nat.lt_or_ge stream.reader.start (snapshot.log stream.runId).length with more | none_
    · -- the last event is past the start, so it was seen, and all before it
      have bound : (snapshot.log stream.runId).length - 1 < (snapshot.log stream.runId).length := by
        omega
      have last := sequenced.getElem bound
      have seen := inTime _ (List.getElem_mem bound) (by omega)
      have within := (ok.earlier.sequenced stream.runId).le_length seen
      have same := longer.eq_of_length_le (by omega)
      exact same ▸ List.prefix_rfl
    · rw [List.drop_eq_nil_of_le none_]
      exact List.nil_prefix

/-- **An ended stream is complete exactly when no event it owes came late**, that is,
after its last read of events. -/
theorem complete_iff (reached : eventLog.Reachable world) {streamId : Uuid}
    (found : world.streams.lookup streamId = some stream) (ended : stream.stage = .ended) :
    Complete world stream ↔ ¬ Late world stream := by
  have inv := streamInv_inductive.of_reachable reached
  have ok := inv.streams streamId stream found
  have delivered := delivered_of_ended ok ended
  have once : stream.reader.delivered.Pairwise fun a b => a.sequence < b.sequence := by
    rw [delivered]
    exact (ok.earlier.sequenced stream.runId).increasing.sublist (List.drop_sublist _ _)
  constructor
  · rintro complete ⟨event, owes, ahead, unseen⟩
    have member := complete.delivered.subset
      (List.mem_filter.mpr ⟨owes, decide_eq_true ahead⟩)
    rw [delivered] at member
    obtain ⟨seen, _⟩ := mem_snapshotLog.mp (List.mem_of_mem_drop member)
    rw [seen] at unseen
    cases unseen
  · intro inTime
    refine ⟨?_, once⟩
    rw [delivered]
    unfold Late at inTime
    unfold owed at inTime ⊢
    split at inTime
    · exact List.nil_prefix
    next snapshot first =>
      have earlier := inv.history snapshot (List.mem_of_find?_eq_some first)
      rw [(earlier.sequenced stream.runId).filter_eq_drop]
      refine drop_prefix_of_seen inv earlier ok fun event member ahead => ?_
      refine mem_seen earlier ok member (Bool.eq_false_iff.mpr fun unseen => ?_)
      exact inTime ⟨event, member, ahead, unseen⟩

end Ended

/-! ## The defect -/

/-- The run is claimed and a client opens a stream and gets what there is. -/
def watchPing : List EventAction :=
  createPing ++
    [.begin 2 (.claim 1 "a" 0), .proceed 2, .commit 2, .openStream 1 1 0 none,
      .pollEvents 1, .pollStatus 1]

/-- The worker ends the run, and commits the `run_finished` event with it. -/
def finishPing : List EventAction :=
  [.begin 3 (.finish 1 "a" 2 { status := .succeeded } 0), .proceed 3, .proceed 3, .proceed 3,
    .commit 3]

theorem complete_iff_patient : ∃ world stream,
    eventLog.exec .start (watchPing ++ finishPing ++
      [.pollEvents 1, .pollStatus 1, .pollEvents 1, .pollStatus 1]) = some world ∧
      world.streams.lookup 1 = some stream ∧ stream.stage = .ended ∧ Complete world stream := by
  have ran : (eventLog.exec .start (watchPing ++ finishPing ++
      [.pollEvents 1, .pollStatus 1, .pollEvents 1, .pollStatus 1])).bind (fun world =>
        (world.streams.lookup 1).map fun stream => (stream.stage, decide (Late world stream))) =
      some (.ended, false) := by decide
  obtain ⟨world, done, ran⟩ := Option.bind_eq_some_iff.mp ran
  obtain ⟨stream, found, ran⟩ := Option.map_eq_some_iff.mp ran
  simp only [Prod.mk.injEq] at ran
  refine ⟨world, stream, done, found, ran.1, ?_⟩
  exact (complete_iff ⟨.start, rfl, System.leads_of_exec done⟩ found ran.1).mpr
    (of_decide_eq_false ran.2)

/-- **The stream ends without the `run_finished` event** when the run ends between
its two reads. -/
theorem complete_fails : ¬ ∀ world streamId stream, eventLog.Reachable world →
    world.streams.lookup streamId = some stream → stream.stage = .ended →
      Complete world stream := by
  intro complete
  have ran : (eventLog.exec .start (watchPing ++ [.pollEvents 1] ++ finishPing ++
      [.pollStatus 1])).bind (fun world => (world.streams.lookup 1).map fun stream =>
        (stream.stage, ((owed world.history stream.runId).filter fun event =>
          stream.reader.start < event.sequence).map RunEvent.eventType,
          stream.reader.delivered.map RunEvent.eventType)) =
      some (.ended, ["run_queued", "run_finished"], ["run_queued"]) := by decide
  obtain ⟨world, done, ran⟩ := Option.bind_eq_some_iff.mp ran
  obtain ⟨stream, found, ran⟩ := Option.map_eq_some_iff.mp ran
  simp only [Prod.mk.injEq] at ran
  obtain ⟨ended, owes, given⟩ := ran
  have reached : eventLog.Reachable world := ⟨.start, rfl, System.leads_of_exec done⟩
  have all := (complete world 1 stream reached found ended).delivered.map RunEvent.eventType
  rw [owes, given] at all
  exact absurd all.length_le (by decide)

end OpsComposer.EventLog
