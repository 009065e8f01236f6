import OpsComposer.EventLog.System

/-!
# The event log has no gaps

The committed events of a run carry the numbers `1, 2, …, n`, and this list only
ever grows at its end, whatever transactions run at the same time and whichever of
them roll back.  A client that calls `events_after` again and again from the last
number it was given therefore gets every event after its first cursor once and in
order, and it gets each of them after so many calls as there are events in between.
-/

set_option autoImplicit false

namespace OpsComposer.EventLog

open Domain Foundations Repositories Services

/-- The committed events of a run, in order. -/
def EventWorld.log (world : EventWorld) (runId : Uuid) : List RunEvent := world.database.log runId

/-! ## One step of the database -/

/-- No update of a run touches its counter. -/
theorem RunWrite.row?_counter {write : RunWrite} {run row : Run}
    (updated : write.row? run = some row) :
    row.runId = run.runId ∧ row.nextEventSequence = run.nextEventSequence := by
  cases write with
  | requestCancel now | claim workerId now | markRunning now | finish workerId outcome now
  | interrupt now =>
      simp only [RunWrite.row?] at updated
      split at updated <;> cases updated
      exact ⟨rfl, rfl⟩

/-- The database goes on: it stays consistent, and committed events stay. -/
structure Advances (database database' : RunDatabase) : Prop where
  consistent : database.Consistent → database'.Consistent
  kept : ∀ id event, database.entries.lookup id = some event →
    database'.entries.lookup id = some event

theorem Advances.refl (database : RunDatabase) : Advances database database := ⟨id, fun _ _ => id⟩

theorem Advances.of_same {database database' : RunDatabase}
    (consistent : database.Consistent → database'.Consistent)
    (same : Database.SameCommitted database database') : Advances database database' where
  consistent := consistent
  kept id event found := by rw [same.entries, found]

/-- A statement commits nothing. -/
theorem advances_issue {database : RunDatabase} {issued : RunDatabase × List Statement}
    {txId : Uuid} {statement : Statement} (isIssued : statement.issue database txId = some issued) :
    Advances database issued.1 ∧ Database.SameCommitted database issued.1 := by
  have both : ∀ {database' : RunDatabase},
      (database.Consistent → database'.Consistent) → Database.SameCommitted database database' →
        Advances database database' ∧ Database.SameCommitted database database' :=
    fun consistent same => ⟨.of_same consistent same, same⟩
  cases statement with
  | insertRun draft =>
      simp only [Statement.issue] at isIssued
      split at isIssued
      · cases isIssued
      next tx found =>
        split at isIssued
        next absent =>
          obtain ⟨written, isWritten, same⟩ := Option.map_eq_some_iff.mp isIssued
          cases same
          refine both (fun consistent => ?_) (Database.sameCommitted_write? isWritten)
          refine consistent.write? isWritten fun tx' found' => ?_
          obtain rfl := Option.some.inj (found.symm.trans found')
          -- a new row begins to count at one
          have fresh : database.visible tx (runNumbering.rowKey draft.run) = none :=
            Option.isNone_iff_eq_none.mp absent
          rw [fresh]
          rfl
        · cases isIssued
  | updateRun runId write required =>
      simp only [Statement.issue] at isIssued
      split at isIssued
      · cases isIssued
      next tx found =>
        split at isIssued
        · split at isIssued
          · cases isIssued
          · cases isIssued
            exact ⟨.refl database, rfl, rfl⟩
        next row updated =>
          obtain ⟨written, isWritten, same⟩ := Option.map_eq_some_iff.mp isIssued
          cases same
          refine both (fun consistent => ?_) (Database.sameCommitted_write? isWritten)
          refine consistent.write? isWritten fun tx' found' => ?_
          obtain rfl := Option.some.inj (found.symm.trans found')
          obtain ⟨run, seen, isRow⟩ := Option.bind_eq_some_iff.mp updated
          obtain ⟨sameId, sameCounter⟩ := RunWrite.row?_counter isRow
          have named : run.runId = runId := Database.Consistent.rowKey_of_visible seen
          rw [show runNumbering.rowKey row = runId from sameId.trans named, seen]
          exact sameCounter
  | appendEvent event =>
      simp only [Statement.issue] at isIssued
      split at isIssued
      · cases isIssued
      next reserved isReserved =>
        split at isIssued
        · cases isIssued
        · cases isIssued
          exact both (fun consistent => consistent.reserve? isReserved)
            (Database.sameCommitted_reserve? isReserved)
  | insertEvent event =>
      obtain ⟨inserted, isInserted, same⟩ := Option.map_eq_some_iff.mp isIssued
      cases same
      exact both (fun consistent => consistent.insert? isInserted)
        (Database.sameCommitted_insert? isInserted)

/-- The action is a call of `events_after` by the client. -/
def EventAction.reads (replayId : Uuid) : EventAction → Bool
  | .read id _ => id == replayId
  | _ => false

/-- What a step does to the world. -/
inductive EventEffect (world : EventWorld) : EventAction → EventWorld → Prop where
  | moves {action : EventAction} {next : EventWorld} (unread : ∀ id, action.reads id = false)
      (advances : Advances world.database next.database)
      (same : Database.SameCommitted world.database next.database)
      (replays : next.replays = world.replays) (streams : next.streams = world.streams)
      (history : next.history = world.history) : EventEffect world action next
  | commits {txId : Uuid} {next : EventWorld} (advances : Advances world.database next.database)
      (replays : next.replays = world.replays) (streams : next.streams = world.streams)
      (history : next.history = world.history ++ [next.snapshot]) :
      EventEffect world (.commit txId) next
  | opens {replayId runId : Uuid} {start : Nat} (free : world.replays.lookup replayId = none) :
      EventEffect world (.openReplay replayId runId start) { world with
        replays := world.replays.put
          { replayId := replayId, runId := runId, reader := .at_ start } }
  | unanswered {replayId : Uuid} {limit : Nat} {replay : Replay} (positive : 1 ≤ limit)
      (found : world.replays.lookup replayId = some replay)
      (missing : world.database.rows.lookup replay.runId = none) :
      EventEffect world (.read replayId limit) world
  | reads {replayId : Uuid} {limit : Nat} {replay : Replay} (positive : 1 ≤ limit)
      (found : world.replays.lookup replayId = some replay) :
      EventEffect world (.read replayId limit) { world with
        replays := world.replays.put { replay with
          reader := replay.reader.deliver RunEvent.sequence
            (RunRepository.eventsAfter world.store replay.runId replay.reader.cursor limit) } }
  | connects {streamId runId : Uuid} {after : Nat} {lastEventId : Option Int}
      (free : world.streams.lookup streamId = none) :
      EventEffect world (.openStream streamId runId after lastEventId) { world with
        streams := world.streams.put
          { streamId := streamId
            runId := runId
            reader := .at_ (startCursor after lastEventId)
            stage := .polling
            seen := world.snapshot } }
  | polls {streamId : Uuid} {stream : Stream} (found : world.streams.lookup streamId = some stream)
      (polling : stream.stage = .polling) : EventEffect world (.pollEvents streamId) { world with
        streams := world.streams.put (world.pollEvents stream) }
  | checks {streamId : Uuid} {stream : Stream} {quiet : Bool}
      (found : world.streams.lookup streamId = some stream)
      (checking : stream.stage = .checking quiet) :
      EventEffect world (.pollStatus streamId) { world with
        streams := world.streams.put (world.pollStatus stream quiet) }
  | disconnects {streamId : Uuid} {stream : Stream}
      (found : world.streams.lookup streamId = some stream) (polling : stream.stage = .polling) :
      EventEffect world (.disconnect streamId) { world with
        streams := world.streams.put { stream with stage := .gone } }

variable {action : EventAction} {next world : EventWorld} {replay : Replay} {replayId runId : Uuid}

/-- **Every step is one of the effects.** -/
theorem effect_of_step
    (step : eventLog.step world action = some next) : EventEffect world action next := by
  change world.step action = some next at step
  cases action with
  | begin txId operation =>
      obtain ⟨database, begun, step⟩ := Option.bind_eq_some_iff.mp step
      obtain ⟨programs, _, rfl⟩ := Option.map_eq_some_iff.mp step
      have same := Database.sameCommitted_begin? begun
      exact .moves (fun _ => rfl) (.of_same (fun consistent => consistent.begin? begun) same) same
        rfl rfl rfl
  | proceed txId =>
      simp only [EventWorld.step] at step
      split at step
      · obtain ⟨issued, isIssued, rfl⟩ := Option.map_eq_some_iff.mp step
        obtain ⟨advances, same⟩ := advances_issue isIssued
        exact .moves (fun _ => rfl) advances same rfl rfl rfl
      · cases step
  | commit txId =>
      simp only [EventWorld.step] at step
      split at step
      · obtain ⟨database, committed, rfl⟩ := Option.map_eq_some_iff.mp step
        exact .commits ⟨fun consistent => consistent.commit? committed,
          fun id event => Database.kept_commit? committed⟩ rfl rfl rfl
      · cases step
  | rollback txId =>
      cases step
      exact .moves (fun _ => rfl) ⟨fun consistent => consistent.rollback, fun _ _ => id⟩ ⟨rfl, rfl⟩
        rfl rfl rfl
  | openReplay replayId runId start =>
      obtain ⟨replays, inserted, rfl⟩ := Option.map_eq_some_iff.mp step
      obtain ⟨free, rfl⟩ := Table.insert?_eq_some.mp inserted
      exact .opens free
  | read replayId limit =>
      simp only [EventWorld.step] at step
      split at step
      · cases step
      next replay found =>
        split at step
        next positive =>
          unfold RunService.eventsAfter at step
          split at step
          next missing =>
            cases step
            split at missing
            next absent => exact .unanswered positive found absent
            · cases missing
          next answered =>
            cases step
            split at answered
            · cases answered
            · cases answered
              exact .reads positive found
        · cases step
  | openStream streamId runId after lastEventId =>
      simp only [EventWorld.step] at step
      split at step
      · cases step
        exact .moves (fun _ => rfl) (.refl _) ⟨rfl, rfl⟩ rfl rfl rfl
      · obtain ⟨streams, inserted, rfl⟩ := Option.map_eq_some_iff.mp step
        obtain ⟨free, rfl⟩ := Table.insert?_eq_some.mp inserted
        exact .connects free
  | pollEvents streamId =>
      simp only [EventWorld.step] at step
      split at step
      · cases step
      next found =>
        split at step
        next polling =>
          cases step
          exact .polls found polling
        · cases step
  | pollStatus streamId =>
      simp only [EventWorld.step] at step
      split at step
      · cases step
      next found =>
        split at step
        next checking =>
          cases step
          exact .checks found checking
        · cases step
  | disconnect streamId =>
      simp only [EventWorld.step] at step
      split at step
      · cases step
      next found =>
        split at step
        next polling =>
          cases step
          exact .disconnects found polling
        · cases step

/-- **Every step keeps the database consistent and the committed events.** -/
theorem advances_of_effect
    (effect : EventEffect world action next) : Advances world.database next.database := by
  cases effect with
  | moves _ advances | commits advances => exact advances
  | _ => exact .refl _

theorem consistent_inductive : eventLog.Inductive fun world => world.database.Consistent where
  initial := by
    rintro world rfl
    exact Database.consistent_empty
  preserved world action next consistent step :=
    (advances_of_effect (effect_of_step step)).consistent consistent

/-- The log of every run only grows. -/
theorem log_grows (consistent : world.database.Consistent) (effect : EventEffect world action next)
    (runId : Uuid) : world.log runId <+: next.log runId := by
  have advances := advances_of_effect effect
  exact Database.log_prefix consistent (advances.consistent consistent) advances.kept runId

/-- `events_after` reads on in the log. -/
theorem eventsAfter_eq (consistent : world.database.Consistent)
    (runId : Uuid) (cursor limit : Nat) :
    RunRepository.eventsAfter world.store runId cursor limit =
      ((world.log runId).drop cursor).take limit :=
  consistent.page_eq runId cursor limit

theorem mem_log {event : RunEvent} :
    event ∈ world.log runId ↔
      world.database.entries.lookup event.runEventId = some event ∧ event.runId = runId := by
  rw [EventWorld.log, Database.log, mem_inOrder, Table.mem_select]
  rfl

/-- A run that is not there has no events. -/
theorem log_of_missing (consistent : world.database.Consistent)
    (missing : world.database.rows.lookup runId = none) : world.log runId = [] := by
  have numbers := (consistent.numbered runId).map_inOrder
  have none_ : Database.next world.database.rows runId = 1 := by
    rw [Database.next, missing]
    rfl
  rw [none_] at numbers
  exact List.map_eq_nil_iff.mp numbers

/-- What the service answers a call of `events_after` with. -/
theorem eventsAfter_ok (consistent : world.database.Consistent) {cursor limit : Nat}
    {events : List RunEvent}
    (answered : RunService.eventsAfter world.store runId cursor limit = .ok events) :
    events = ((world.log runId).drop cursor).take limit := by
  unfold RunService.eventsAfter at answered
  split at answered
  · cases answered
  · cases answered
    exact eventsAfter_eq consistent runId cursor limit

/-! ## Replays -/

/-- A client keeps its run and its start; a call delivers the next batch. -/
structure ReplayMoves (world : EventWorld) (action : EventAction) (replay replay' : Replay) :
    Prop where
  runId : replay'.runId = replay.runId
  stays : action.reads replay.replayId = false → replay'.reader = replay.reader
  reads : action.reads replay.replayId = true → ∃ limit, 1 ≤ limit ∧
    replay'.reader = replay.reader.deliver RunEvent.sequence
      (((world.log replay.runId).drop replay.reader.cursor).take limit)

theorem ReplayMoves.unread
    (unread : action.reads replay.replayId = false) : ReplayMoves world action replay replay where
  runId := rfl
  stays _ := rfl
  reads isRead := by
    rw [unread] at isRead
    cases isRead

theorem replay_of_effect (consistent : world.database.Consistent)
    (effect : EventEffect world action next) (found : world.replays.lookup replayId = some replay) :
    ∃ replay', next.replays.lookup replayId = some replay' ∧
      ReplayMoves world action replay replay' := by
  have named : replay.replayId = replayId := Table.key_of_lookup found
  cases effect with
  | moves unread _ _ replays => exact ⟨replay, replays ▸ found, .unread (unread _)⟩
  | commits _ replays => exact ⟨replay, replays ▸ found, .unread rfl⟩
  | opens free =>
      refine ⟨replay, ?_, .unread rfl⟩
      rw [← found]
      refine Table.lookup_put_of_ne _ ?_
      rintro rfl
      exact Table.not_free free found
  | @unanswered id limit other positive present missing =>
      by_cases same : id = replayId
      · subst same
        obtain rfl := Option.some.inj (present.symm.trans found)
        -- an empty batch changes nothing
        refine ⟨other, found, rfl, fun _ => rfl, fun _ => ⟨limit, positive, ?_⟩⟩
        rw [log_of_missing consistent missing]
        simp [Reader.deliver]
      · refine ⟨replay, found, .unread ?_⟩
        simp [EventAction.reads, named, same]
  | @reads id limit other positive present =>
      have otherNamed : other.replayId = id := Table.key_of_lookup present
      by_cases same : id = replayId
      · subst same
        obtain rfl := Option.some.inj (present.symm.trans found)
        refine ⟨_, (Table.lookup_put ..).trans (if_pos otherNamed), rfl, ?_,
          fun _ => ⟨limit, positive, ?_⟩⟩
        · intro unread
          simp [EventAction.reads, named] at unread
        · rw [eventsAfter_eq consistent]
      · refine ⟨replay, ?_, .unread ?_⟩
        · rw [← found]
          exact Table.lookup_put_of_ne _ fun same' => same (otherNamed.symm.trans same')
        · simp [EventAction.reads, named, same]
  | _ => exact ⟨replay, found, .unread rfl⟩

/-- New clients have read nothing, and the others move on. -/
theorem newReplay_of_effect (consistent : world.database.Consistent)
    (effect : EventEffect world action next) (found : next.replays.lookup replayId = some replay) :
    (∃ start, replay.reader = .at_ start) ∨ ∃ before,
      world.replays.lookup replayId = some before ∧ ReplayMoves world action before replay := by
  cases present : world.replays.lookup replayId with
  | some before =>
      obtain ⟨replay', found', moves⟩ := replay_of_effect consistent effect present
      obtain rfl := Option.some.inj (found'.symm.trans found)
      exact .inr ⟨before, rfl, moves⟩
  | none =>
      cases effect with
      | moves _ _ _ replays | commits _ replays =>
          exact (Table.not_free present (replays ▸ found)).elim
      | @opens _ _ start free =>
          rcases Table.lookup_put_eq_some.mp found with ⟨_, rfl⟩ | ⟨_, before⟩
          · exact .inl ⟨start, rfl⟩
          · exact (Table.not_free present before).elim
      | reads _ held =>
          rcases Table.lookup_put_eq_some.mp found with ⟨rfl, rfl⟩ | ⟨_, before⟩
          · rw [Table.key_of_lookup held] at present
            exact (Table.not_free present held).elim
          · exact (Table.not_free present before).elim
      | _ => exact (Table.not_free present found).elim

theorem Reader.Follows.moves {replay' : Replay} (consistent : world.database.Consistent)
    (effect : EventEffect world action next) (moves : ReplayMoves world action replay replay')
    (follows : replay.reader.Follows (world.log replay.runId)) :
    replay'.reader.Follows (next.log replay'.runId) := by
  have grows := log_grows consistent effect replay.runId
  rw [moves.runId]
  cases isRead : action.reads replay.replayId with
  | false =>
      rw [moves.stays isRead]
      exact follows.grow grows
  | true =>
      obtain ⟨limit, _, delivered⟩ := moves.reads isRead
      rw [delivered]
      exact (follows.deliver (consistent.sequenced_log replay.runId) limit).grow grows

/-- The database is consistent, and every client follows the log of its run. -/
structure LogInv (world : EventWorld) : Prop where
  consistent : world.database.Consistent
  follows : ∀ replayId replay, world.replays.lookup replayId = some replay →
    replay.reader.Follows (world.log replay.runId)

theorem logInv_inductive : eventLog.Inductive LogInv where
  initial := by
    rintro world rfl
    exact ⟨Database.consistent_empty, fun _ _ found => by cases found⟩
  preserved world action next inv step := by
    have effect := effect_of_step step
    refine ⟨(advances_of_effect effect).consistent inv.consistent, ?_⟩
    intro replayId replay found
    rcases newReplay_of_effect inv.consistent effect found with ⟨start, isNew⟩ | ⟨before, held, moves⟩
    · rw [isNew]
      exact Reader.follows_at _ start
    · exact Reader.Follows.moves inv.consistent effect moves (inv.follows replayId before held)

/-! ## Every event, once and in order -/

/-- So many calls bring the cursor so far, unless it has reached the event before. -/
theorem cursor_of_trace {later : EventWorld} {actions : List EventAction} (inv : LogInv world)
    (trace : eventLog.Trace world actions later)
    (found : world.replays.lookup replayId = some replay) {event : RunEvent}
    (committed : event ∈ world.log replay.runId) :
    ∃ replay', later.replays.lookup replayId = some replay' ∧ replay'.runId = replay.runId ∧
      replay'.reader.start = replay.reader.start ∧ event ∈ later.log replay.runId ∧
      min event.sequence (replay.reader.cursor + actions.countP (EventAction.reads replayId)) ≤
        replay'.reader.cursor := by
  induction trace with
  | refl => exact ⟨replay, found, rfl, rfl, committed, by simp⟩
  | @tail middle next actions action before step ih =>
      obtain ⟨replay', found', sameRun, sameStart, still, reached⟩ := ih
      have invMiddle := logInv_inductive.leads inv ⟨actions, before⟩
      have effect := effect_of_step step
      obtain ⟨replay'', found'', moves⟩ := replay_of_effect invMiddle.consistent effect found'
      have named : replay'.replayId = replayId := Table.key_of_lookup found'
      have grows := log_grows invMiddle.consistent effect replay.runId
      have sequenced : Sequenced RunEvent.sequence (middle.log replay.runId) :=
        invMiddle.consistent.sequenced_log replay.runId
      refine ⟨replay'', found'', moves.runId.trans sameRun, ?_, grows.subset still, ?_⟩
      · rw [← sameStart]
        cases isRead : action.reads replay'.replayId with
        | false => rw [moves.stays isRead]
        | true =>
            obtain ⟨limit, _, delivered⟩ := moves.reads isRead
            rw [delivered]
            rfl
      · rw [List.countP_append, List.countP_singleton]
        cases isRead : action.reads replay'.replayId with
        | false =>
            rw [named] at isRead
            rw [moves.stays (named ▸ isRead), isRead]
            simpa using reached
        | true =>
            obtain ⟨limit, positive, delivered⟩ := moves.reads isRead
            have within := sequenced.le_length still
            rw [named] at isRead
            rw [delivered, sameRun, Reader.cursor_deliver sequenced, isRead, List.length_take,
              List.length_drop]
            simp only [if_true]
            omega

/-- What clients can rely on. -/
structure GapFree (world : EventWorld) : Prop where
  /-- The numbers of the committed events are `1, …, n`. -/
  numbers : ∀ runId, (world.log runId).map RunEvent.sequence =
    List.range' 1 (world.log runId).length
  committed : ∀ runId event, event ∈ world.log runId ↔
    world.database.entries.lookup event.runEventId = some event ∧ event.runId = runId
  grows : ∀ later runId, eventLog.Leads world later → world.log runId <+: later.log runId
  /-- A client has been given the events between its first cursor and its last one. -/
  delivered : ∀ replayId replay, world.replays.lookup replayId = some replay →
    replay.reader.delivered =
      ((world.log replay.runId).take replay.reader.cursor).drop replay.reader.start
  /-- It is given each event that is there, after enough calls. -/
  delivers : ∀ actions later replayId replay event, eventLog.Trace world actions later →
    world.replays.lookup replayId = some replay → event ∈ world.log replay.runId →
      replay.reader.start < event.sequence →
        event.sequence ≤ replay.reader.cursor + actions.countP (EventAction.reads replayId) →
          ∃ replay', later.replays.lookup replayId = some replay' ∧
            event ∈ replay'.reader.delivered

/-- **In every reachable state, whatever is in flight, the log has no gaps.** -/
theorem gapFree {world : EventWorld} (reached : eventLog.Reachable world) : GapFree world := by
  have inv := logInv_inductive.of_reachable reached
  refine ⟨inv.consistent.sequenced_log, fun _ _ => mem_log, ?_, ?_, ?_⟩
  · intro later runId run
    have kept : ∀ (before : EventWorld) (action : EventAction) (after : EventWorld),
        before.database.Consistent → world.log runId <+: before.log runId →
        eventLog.step before action = some after → world.log runId <+: after.log runId := by
      intro before action after consistent grown step
      exact grown.trans (log_grows consistent (effect_of_step step) runId)
    exact System.Leads.preserves consistent_inductive kept inv.consistent List.prefix_rfl run
  · intro replayId replay found
    exact (inv.follows replayId replay found).delivered
  · intro actions later replayId replay event trace found committed ahead enough
    obtain ⟨replay', found', sameRun, sameStart, still, cursor⟩ :=
      cursor_of_trace inv trace found committed
    have invLater := logInv_inductive.leads inv ⟨actions, trace⟩
    have follows := invLater.follows replayId replay' found'
    rw [sameRun] at follows
    have sequenced : Sequenced RunEvent.sequence (later.log replay.runId) :=
      invLater.consistent.sequenced_log replay.runId
    refine ⟨replay', found', (follows.mem_delivered sequenced).mpr ⟨still, ?_, ?_⟩⟩
    · rw [sameStart]
      exact ahead
    · omega

/-- A ping of one host. -/
def pingDraft : RunService.Draft where
  runId := 1
  kind := .ping
  targetSpec := []
  resolvedTargets := []
  operationSpec := []
  inventorySnapshot := []
  credentialVersions := []
  timeoutSeconds := 60
  forks := 1
  requestedBy := 1
  idempotencyKey := "ping"
  fingerprint := "fingerprint"
  now := 0
  targets := []
  eventId := 1

/-- A run is created. -/
def createPing : List EventAction :=
  [.begin 1 (.create pingDraft), .proceed 1, .proceed 1, .proceed 1, .commit 1]

/-- A worker event and a cancellation at the same time; the worker has reserved a
number and rolls back. -/
def rollBackOne : List EventAction :=
  createPing ++
    [.openReplay 1 1 0,
      .begin 2 (.appendEvent .default 1 2 { eventType := "log" } 0),
      .begin 3 (.cancel 1 3 0),
      .proceed 2, .rollback 2, .proceed 3, .proceed 3, .proceed 3,
      .read 1 500, .commit 3, .read 1 1]

theorem gapFree_rollBackOne : ∃ world, eventLog.exec .start rollBackOne = some world ∧
    (world.log 1).map RunEvent.runEventId = [1, 3] ∧ GapFree world := by
  have ran : (eventLog.exec .start rollBackOne).map (fun world =>
      (world.log 1).map RunEvent.runEventId) = some [1, 3] := by decide
  obtain ⟨world, done, events⟩ := Option.map_eq_some_iff.mp ran
  exact ⟨world, done, events, gapFree ⟨.start, rfl, System.leads_of_exec done⟩⟩

end OpsComposer.EventLog
