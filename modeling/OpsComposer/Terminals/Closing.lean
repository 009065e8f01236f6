import OpsComposer.Terminals.Relay

/-!
# How a web shell ends

However a stream ends, by itself, by an error at any of its calls or because it is told to, the
same way leads out: the terminal is closed, then the service is told, which releases the lease and
the lock of the host, and then the client.

* `closes_in_order` — the service is told once at most, and only when the terminal is closed; the
  client is told once at most, after the service and the same; a stream that has been claimed and
  is over has told the service, unless closing the terminal has failed;
* `quiet_after_end` — from the moment the service is told nothing reaches the PTY any more; after
  the closed frame nothing is handed to the socket, unless the stream has ended by an error of one
  of its tasks, which leaves the others running.
-/

set_option autoImplicit false

namespace OpsComposer.Terminals

open Domain Foundations Services
  Services.WebShellManager

/-! ## Closed frames -/

/-- The closed frames that have been handed to the socket. -/
def closings (sent : List Frame) : List (WebShellCloseReason × Option Int) :=
  sent.filterMap fun
    | .closed reason exitCode => some (reason, exitCode)
    | _ => none

@[simp] theorem closings_append {sent later : List Frame} :
    closings (sent ++ later) = closings sent ++ closings later := List.filterMap_append

/-! ## Steps of the tasks -/

/-- The step leaves the stream itself where it is, and hands nothing to the socket unless the
tasks run. -/
structure PhaseKept (state next : Stream) : Prop where
  phase : next.phase = state.phase
  claimed : next.claimed = state.claimed
  started : next.started = state.started
  registered : next.registered = state.registered
  spawned : next.spawned = state.spawned
  cancelled : next.cancelled = state.cancelled
  finishes : next.finishes = state.finishes
  closings : closings next.sent = closings state.sent
  silent : state.Runs ∨ next.sent = state.sent
  closed : state.terminal.closed = true → next.terminal.closed = true

section Steps

variable {tooDeep : Text → Bool} {limits : Limits} {state next : Stream}

/-- The action is one of the stream itself. -/
def resumes : StreamAction → Bool
  | .resume _ => true
  | _ => false

theorem PhaseKept.same (next : Stream) (phase : next.phase = state.phase := by rfl)
    (claimed : next.claimed = state.claimed := by rfl)
    (started : next.started = state.started := by rfl)
    (registered : next.registered = state.registered := by rfl)
    (spawned : next.spawned = state.spawned := by rfl)
    (cancelled : next.cancelled = state.cancelled := by rfl)
    (finishes : next.finishes = state.finishes := by rfl) (sent : next.sent = state.sent := by rfl)
    (closed : next.terminal.closed = state.terminal.closed := by rfl) :
    PhaseKept state next :=
  ⟨phase, claimed, started, registered, spawned, cancelled, finishes, by rw [sent], .inr sent,
    fun before => closed.trans before⟩

/-- What is only done under a condition. -/
theorem of_guard {condition : Prop} [Decidable condition] {done : Stream} {P : Stream → Prop}
    (step : (if condition then some done else none) = some next)
    (holds : condition → P done) : P next := by
  split at step
  · rename_i met
    exact Option.some.inj step ▸ holds met
  · cases step

theorem phaseKept_lose (raised : Fault) : PhaseKept state (state.lose raised) := by
  unfold Stream.lose
  split <;> exact .same _

theorem phaseKept_refuse (runs : state.Runs) (code message : String) :
    PhaseKept state (state.refuse code message) := by
  unfold Stream.refuse Stream.sendError
  split
  · exact ⟨rfl, rfl, rfl, rfl, rfl, rfl, rfl, by simp [Stream.send, closings], .inl runs, id⟩
  · exact .same _

theorem phaseKept_accept (runs : state.Runs) (message : Message) :
    PhaseKept state (state.accept tooDeep message) := by
  cases message with
  | disconnect | other => exact .same _
  | binary data =>
      simp only [Stream.accept]
      split
      · exact phaseKept_refuse runs _ _
      · split <;> exact .same _
  | text value =>
      simp only [Stream.accept]
      split
      · exact .same _
      · split
        · exact .same _
        · split
          · exact .same _
          · exact phaseKept_refuse runs _ _
          · exact .same _
          · split <;> exact .same _

/-- What a task does to the stream, when it does it with something else of no concern. -/
theorem PhaseKept.after {middle : Stream} (kept : PhaseKept state middle)
    (same : PhaseKept middle next) (silent : next.sent = middle.sent) : PhaseKept state next where
  phase := same.phase.trans kept.phase
  claimed := same.claimed.trans kept.claimed
  started := same.started.trans kept.started
  registered := same.registered.trans kept.registered
  spawned := same.spawned.trans kept.spawned
  cancelled := same.cancelled.trans kept.cancelled
  finishes := same.finishes.trans kept.finishes
  closings := same.closings.trans kept.closings
  silent := kept.silent.imp_right silent.trans
  closed closed := same.closed (kept.closed closed)

theorem phaseKept_of_step {action : StreamAction} (other : resumes action = false)
    (step : state.step tooDeep limits action = some next) : PhaseKept state next := by
  cases action with
  | tick elapsed | hangUp | shutdown => exact Option.some.inj step ▸ .same _
  | emit data | exit code | request reason | read length | readEnd | readFailed | joined
  | receiveFailed raised =>
      exact of_guard step fun _ => .same _
  | closeTerminal =>
      exact of_guard step fun _ =>
        ⟨rfl, rfl, rfl, rfl, rfl, rfl, rfl, rfl, .inr rfl, fun _ => rfl⟩
  | put =>
      simp only [Stream.step, Stream.put] at step
      split at step
      · split at step
        · exact Option.some.inj step ▸ .same _
        · exact Option.some.inj step ▸ .same _
        · cases step
      · cases step
  | take =>
      simp only [Stream.step, Stream.take] at step
      split at step
      · rename_i able
        split at step
        · cases step
        · exact Option.some.inj step ▸ .same _
        · split at step
          · exact Option.some.inj step ▸ ⟨rfl, rfl, rfl, rfl, rfl, rfl, rfl,
              by simp [Stream.send, closings], .inl able.1, id⟩
          · exact Option.some.inj step ▸ .same _
      · cases step
  | delivered raised =>
      simp only [Stream.step, Stream.delivered] at step
      split at step
      · split at step
        · cases raised with
          | none => exact Option.some.inj step ▸ .same _
          | some raised =>
              exact Option.some.inj step ▸
                (phaseKept_lose raised).after (.same _) rfl
        · cases step
      · cases step
  | sendTimeout | left | write length | writeStopped | writeFailed =>
      simp only [Stream.step, Stream.sendTimeout, Stream.left, Stream.write, Stream.writeStopped,
        Stream.writeFailed] at step
      split at step
      · exact of_guard step fun _ => .same _
      · cases step
  | receive message =>
      refine of_guard step fun able => ?_
      have received : PhaseKept state { state with received := state.received ++ [message] } :=
        .same _
      have runs : Stream.Runs { state with received := state.received ++ [message] } := able.1
      have accepted := @phaseKept_accept tooDeep _ runs message
      exact
        { phase := accepted.phase.trans received.phase
          claimed := accepted.claimed.trans received.claimed
          started := accepted.started.trans received.started
          registered := accepted.registered.trans received.registered
          spawned := accepted.spawned.trans received.spawned
          cancelled := accepted.cancelled.trans received.cancelled
          finishes := accepted.finishes.trans received.finishes
          closings := accepted.closings.trans received.closings
          silent := .inl able.1
          closed := fun closed => accepted.closed (received.closed closed) }
  | refused raised =>
      simp only [Stream.step, Stream.refused] at step
      split at step
      · cases raised with
        | none => exact Option.some.inj step ▸ .same _
        | some raised =>
            exact Option.some.inj step ▸
              (phaseKept_lose raised).after (.same _) rfl
      · cases step
  | wake =>
      simp only [Stream.step, Stream.wake] at step
      split at step
      · split at step
        · repeat' split at step
          all_goals exact Option.some.inj step ▸ .same _
        · cases step
      · cases step
  | beaten answer =>
      simp only [Stream.step, Stream.beaten] at step
      split at step
      · split at step
        · split at step
          all_goals exact Option.some.inj step ▸ .same _
        · cases step
      · cases step
  | reap =>
      simp only [Stream.step, Stream.reap] at step
      split at step
      · obtain ⟨code, -, rfl⟩ := Option.map_eq_some_iff.mp step
        exact .same _
      · cases step
  | resume raised => cases other

end Steps

/-! ## What has been told -/

/-- The service has not been told yet. -/
def Open : Phase → Prop
  | .finishing _ _ | .notifying | .hangingUp | .finished => False
  | _ => True

/-- The terminal of a stream that is so far has been closed. -/
def Late : Phase → Prop
  | .awaiting _ _ | .unregistering _ _ | .finishing _ _ | .notifying | .hangingUp | .finished => True
  | _ => False

/-- The terminal of a stream that is so far can be found among the active ones. -/
def Listed : Phase → Prop
  | .readying | .serving | .gathering _ _ | .handling _ | .closing _ _ | .awaiting _ _ => True
  | _ => False

/-- The terminal is being closed. -/
def Shutting : Phase → Prop
  | .closing _ _ | .awaiting _ _ => True
  | _ => False

/-- There is no terminal yet. -/
def Fresh : Phase → Prop
  | .claiming | .accepting | .confirming | .starting => True
  | _ => False

/-- What the service has to be told. -/
def owed (state : Stream) (reason : WebShellCloseReason) (exitCode : Option Int) :
    List (WebShellCloseReason × Option Int) :=
  if state.claimed then [(reason, exitCode)] else []

/-- Who has been told how the stream has ended. -/
inductive Told (state : Stream) : Prop where
  | nobody (phase : Open state.phase) (finishes : state.finishes = [])
      (closings : closings state.sent = [])
  | service {reason : WebShellCloseReason} {exitCode : Option Int}
      (phase : state.phase = .finishing reason exitCode) (unregistered : state.registered = false)
      (finishes : state.finishes = owed state reason exitCode) (claimed : state.claimed = true)
      (closings : closings state.sent = [])
  | both {reason : WebShellCloseReason} {exitCode : Option Int}
      (phase : state.phase = .notifying ∨ state.phase = .hangingUp ∨ state.phase = .finished)
      (unregistered : state.registered = false)
      (finishes : state.finishes = owed state reason exitCode)
      (closings : closings state.sent = [(reason, exitCode)])
  /-- The socket is gone. -/
  | serviceOnly {reason : WebShellCloseReason} {exitCode : Option Int}
      (phase : state.phase = .finished) (unregistered : state.registered = false)
      (finishes : state.finishes = owed state reason exitCode)
      (closings : closings state.sent = [])
  /-- The closing of the terminal has failed. -/
  | failed (phase : state.phase = .finished) (registered : state.registered = true)
      (finishes : state.finishes = []) (closings : closings state.sent = [])

/-- The end comes in order. -/
structure Orderly (state : Stream) : Prop where
  told : Told state
  fresh : Fresh state.phase → state.started = false
  shutting : Shutting state.phase → state.started = true
  closed : Late state.phase → state.started = true → state.terminal.closed = true
  listed : Listed state.phase → state.started = true → state.registered = true

section Invariants

variable {state next : Stream}

theorem Told.of_kept (told : Told state) (kept : PhaseKept state next) : Told next := by
  have owes : owed next = owed state := by
    funext reason exitCode
    rw [owed, owed, kept.claimed]
  cases told with
  | nobody phase finishes closings =>
      exact .nobody (kept.phase ▸ phase) (kept.finishes.trans finishes)
        (kept.closings.trans closings)
  | service phase unregistered finishes claimed closings =>
      exact .service (kept.phase.trans phase) (kept.registered.trans unregistered)
        (owes ▸ kept.finishes.trans finishes) (kept.claimed.trans claimed)
        (kept.closings.trans closings)
  | both phase unregistered finishes closings =>
      exact .both (kept.phase ▸ phase) (kept.registered.trans unregistered)
        (owes ▸ kept.finishes.trans finishes) (kept.closings.trans closings)
  | serviceOnly phase unregistered finishes closings =>
      exact .serviceOnly (kept.phase.trans phase) (kept.registered.trans unregistered)
        (owes ▸ kept.finishes.trans finishes) (kept.closings.trans closings)
  | failed phase registered finishes closings =>
      exact .failed (kept.phase.trans phase) (kept.registered.trans registered)
        (kept.finishes.trans finishes) (kept.closings.trans closings)

theorem Orderly.of_kept (orderly : Orderly state) (kept : PhaseKept state next) :
    Orderly next where
  told := orderly.told.of_kept kept
  fresh := by
    rw [kept.phase, kept.started]
    exact orderly.fresh
  shutting := by
    rw [kept.phase, kept.started]
    exact orderly.shutting
  closed := by
    rw [kept.phase, kept.started]
    exact fun late started => kept.closed (orderly.closed late started)
  listed := by
    rw [kept.phase, kept.started, kept.registered]
    exact orderly.listed

/-- What an error does to a stream: it goes to its end, past the terminal if there is none. -/
structure Fails (state next : Stream) : Prop where
  claimed : next.claimed = state.claimed
  started : next.started = state.started
  registered : next.registered = state.registered
  finishes : next.finishes = state.finishes
  closings : closings next.sent = closings state.sent
  closed : next.terminal.closed = state.terminal.closed
  phase : (∃ reason, next.phase = .handling reason) ∨
    (∃ reason exitCode, next.phase = .closing reason exitCode ∧ state.started = true) ∨
      ∃ reason exitCode, next.phase = .unregistering reason exitCode ∧ state.started = false

theorem fails_finalize (reason : WebShellCloseReason) (exitCode : Option Int) :
    Fails state (state.finalize reason exitCode) := by
  refine ⟨rfl, rfl, rfl, rfl, rfl, rfl, ?_⟩
  cases started : state.started with
  | true => exact .inr (.inl ⟨reason, exitCode, if_pos started, rfl⟩)
  | false => exact .inr (.inr ⟨reason, exitCode, if_neg (by simp [started]), rfl⟩)

theorem fails_sendError (code message : String) (reason : WebShellCloseReason) :
    Fails state { state.sendError code message with phase := .handling reason } := by
  unfold Stream.sendError
  split
  · exact ⟨rfl, rfl, rfl, rfl, by simp [Stream.send, closings], rfl, .inl ⟨reason, rfl⟩⟩
  · exact ⟨rfl, rfl, rfl, rfl, rfl, rfl, .inl ⟨reason, rfl⟩⟩

theorem fails_rejectOrSendError (code message : String) (reason : WebShellCloseReason) :
    Fails state { state.rejectOrSendError code message with phase := .handling reason } := by
  unfold Stream.rejectOrSendError
  split
  · exact ⟨rfl, rfl, rfl, rfl, rfl, rfl, .inl ⟨reason, rfl⟩⟩
  · exact fails_sendError code message reason

theorem fails_fail (raised : Fault) : Fails state (state.fail raised) := by
  cases raised with
  | opsError code publicMessage | runtimeError | other => exact fails_rejectOrSendError _ _ _
  | startError => exact fails_sendError _ _ _
  | disconnected => exact fails_finalize _ _

theorem Told.nobody_of_open (told : Told state) (isOpen : Open state.phase) :
    state.finishes = [] ∧ closings state.sent = [] := by
  cases told with
  | nobody phase finishes closings => exact ⟨finishes, closings⟩
  | service phase => exact (phase ▸ isOpen : Open (.finishing _ _)).elim
  | both phase =>
      rcases phase with phase | phase | phase
      all_goals
        rw [phase] at isOpen
        exact isOpen.elim
  | serviceOnly phase | failed phase => exact (phase ▸ isOpen : Open .finished).elim

/-- An error is met where the terminal, if there is one, is among the active ones. -/
theorem Orderly.of_fails (orderly : Orderly state) (isOpen : Open state.phase)
    (known : Fresh state.phase ∨ Listed state.phase) (fails : Fails state next) : Orderly next := by
  have registered : state.started = true → state.registered = true := fun started =>
    known.elim (fun fresh => nomatch (orderly.fresh fresh).symm.trans started)
      (orderly.listed · started)
  obtain ⟨finishes, silent⟩ := orderly.told.nobody_of_open isOpen
  have told : Open next.phase → Told next := fun isOpen =>
    .nobody isOpen (fails.finishes.trans finishes) (fails.closings.trans silent)
  have listed : next.started = true → next.registered = true := fun started =>
    fails.registered.trans (registered (fails.started.symm.trans started))
  rcases fails.phase with ⟨reason, phase⟩ | ⟨reason, exitCode, phase, started⟩ |
    ⟨reason, exitCode, phase, unstarted⟩
  · exact ⟨told (phase ▸ trivial), by simp [phase, Fresh], by simp [phase, Shutting],
      by simp [phase, Late], fun _ => listed⟩
  · exact ⟨told (phase ▸ trivial), by simp [phase, Fresh], fun _ => fails.started.trans started,
      by simp [phase, Late], fun _ => listed⟩
  · refine ⟨told (phase ▸ trivial), by simp [phase, Fresh], by simp [phase, Shutting],
      fun _ started => ?_, fun _ => listed⟩
    exact nomatch unstarted.symm.trans (fails.started.symm.trans started)

theorem Told.of_finishing (told : Told state) {reason : WebShellCloseReason}
    {exitCode : Option Int} (finishing : state.phase = .finishing reason exitCode) :
    state.registered = false ∧ state.finishes = owed state reason exitCode ∧
      closings state.sent = [] := by
  cases told with
  | nobody phase => exact (finishing ▸ phase : Open (.finishing _ _)).elim
  | service phase unregistered finishes claimed silent =>
      obtain ⟨rfl, rfl⟩ := Phase.finishing.inj (phase.symm.trans finishing)
      exact ⟨unregistered, finishes, silent⟩
  | both phase => simp [finishing] at phase
  | serviceOnly phase | failed phase => exact nomatch phase.symm.trans finishing

theorem Told.of_ending (told : Told state)
    (ending : state.phase = .notifying ∨ state.phase = .hangingUp) :
    state.registered = false ∧ ∃ reason exitCode, state.finishes = owed state reason exitCode ∧
      closings state.sent = [(reason, exitCode)] := by
  cases told with
  | nobody phase =>
      rcases ending with ending | ending
      all_goals
        rw [ending] at phase
        exact phase.elim
  | service phase | serviceOnly phase | failed phase => simp [phase] at ending
  | both phase unregistered finishes closings =>
      exact ⟨unregistered, _, _, finishes, closings⟩

variable {raised : Option Fault} {phase : Phase}

theorem Shutting.listed (shutting : Shutting phase) : Listed phase := by
  cases phase
  case closing | awaiting => trivial
  all_goals exact shutting.elim

theorem Fresh.not_listed (fresh : Fresh phase) : ¬ Listed phase := by
  intro listed
  cases phase
  case claiming | accepting | confirming | starting => exact listed
  all_goals exact fresh

theorem Fresh.not_late (fresh : Fresh phase) : ¬ Late phase := by
  intro late
  cases phase
  case claiming | accepting | confirming | starting => exact late
  all_goals exact fresh

/-- Before there is a terminal. -/
theorem Orderly.of_fresh (told : Told state) (fresh : Fresh state.phase)
    (unstarted : state.started = false) : Orderly state where
  told := told
  fresh _ := unstarted
  shutting shutting := absurd shutting.listed fresh.not_listed
  closed late := absurd late fresh.not_late
  listed listed := absurd listed fresh.not_listed

/-- While the terminal, if there is one, is open. -/
theorem Orderly.of_early (told : Told state) (fresh : ¬ Fresh state.phase)
    (shutting : ¬ Shutting state.phase) (late : ¬ Late state.phase)
    (listed : Listed state.phase → state.started = true → state.registered = true) :
    Orderly state where
  told := told
  fresh isFresh := absurd isFresh fresh
  shutting isShutting := absurd isShutting shutting
  closed isLate := absurd isLate late
  listed := listed

/-- Once the terminal is closed and no longer to be found. -/
theorem Orderly.of_unlisted (told : Told state) (fresh : ¬ Fresh state.phase)
    (unlisted : ¬ Listed state.phase)
    (closed : state.started = true → state.terminal.closed = true) : Orderly state where
  told := told
  fresh isFresh := absurd isFresh fresh
  shutting shutting := absurd shutting.listed unlisted
  closed _ := closed
  listed listed := absurd listed unlisted

/-- The client is told, if it can be. -/
theorem Orderly.sendClosed {reason : WebShellCloseReason} {exitCode : Option Int}
    (unregistered : state.registered = false)
    (finishes : state.finishes = owed state reason exitCode) (silent : closings state.sent = [])
    (closed : state.started = true → state.terminal.closed = true) :
    Orderly (state.sendClosed reason exitCode) := by
  unfold Stream.sendClosed
  split
  · have told : closings (state.send (.closed reason exitCode)).sent = [(reason, exitCode)] := by
      show closings (state.sent ++ _) = _
      rw [closings_append, silent]
      rfl
    exact .of_unlisted (.both (.inl rfl) unregistered finishes told) id id closed
  · exact .of_unlisted (.serviceOnly rfl unregistered finishes silent) id id closed

theorem Orderly.resume (orderly : Orderly state)
    (step : state.resume raised = some next) : Orderly next := by
  cases phase : state.phase with
  | claiming =>
      simp only [Stream.resume, phase] at step
      cases raised with
      | none =>
          obtain ⟨finishes, silent⟩ := orderly.told.nobody_of_open (phase ▸ trivial)
          exact Option.some.inj step ▸
            .of_fresh (.nobody trivial finishes silent) trivial (orderly.fresh (phase ▸ trivial))
      | some raised =>
          exact Option.some.inj step ▸
            orderly.of_fails (phase ▸ trivial) (.inl (phase ▸ trivial)) (fails_fail raised)
  | accepting | confirming =>
      simp only [Stream.resume, phase] at step
      cases raised with
      | none =>
          obtain ⟨finishes, silent⟩ := orderly.told.nobody_of_open (phase ▸ trivial)
          exact Option.some.inj step ▸
            .of_fresh (.nobody trivial finishes silent) trivial (orderly.fresh (phase ▸ trivial))
      | some raised =>
          have lost : PhaseKept state (state.lose raised) := phaseKept_lose raised
          exact Option.some.inj step ▸
            (orderly.of_kept lost).of_fails (lost.phase ▸ phase ▸ trivial)
              (.inl (lost.phase ▸ phase ▸ trivial)) (fails_fail raised)
  | starting =>
      simp only [Stream.resume, phase] at step
      cases raised with
      | none =>
          obtain ⟨finishes, silent⟩ := orderly.told.nobody_of_open (phase ▸ trivial)
          exact Option.some.inj step ▸
            .of_early (.nobody trivial finishes silent) id id id False.elim
      | some raised =>
          exact Option.some.inj step ▸
            orderly.of_fails (phase ▸ trivial) (.inl (phase ▸ trivial)) (fails_fail raised)
  | registering =>
      simp only [Stream.resume, phase] at step
      obtain ⟨finishes, silent⟩ := orderly.told.nobody_of_open (phase ▸ trivial)
      have silent' : closings (state.send .ready).sent = [] := by
        simpa [Stream.send, closings] using silent
      exact Option.some.inj step ▸
        .of_early (.nobody trivial finishes silent') id id id fun _ _ => rfl
  | readying =>
      simp only [Stream.resume, phase] at step
      cases raised with
      | none =>
          obtain ⟨finishes, silent⟩ := orderly.told.nobody_of_open (phase ▸ trivial)
          exact Option.some.inj step ▸
            .of_early (.nobody trivial finishes silent) id id id
              fun _ => orderly.listed (phase ▸ trivial)
      | some raised =>
          have lost : PhaseKept state (state.lose raised) := phaseKept_lose raised
          exact Option.some.inj step ▸
            (orderly.of_kept lost).of_fails (lost.phase ▸ phase ▸ trivial)
              (.inr (lost.phase ▸ phase ▸ trivial)) (fails_fail raised)
  | serving =>
      simp only [Stream.resume, phase] at step
      obtain ⟨outcome, -, rfl⟩ := Option.map_eq_some_iff.mp step
      cases outcome with
      | error raised =>
          exact orderly.of_fails (phase ▸ trivial) (.inr (phase ▸ trivial)) (fails_fail raised)
      | ok answer =>
          obtain ⟨finishes, silent⟩ := orderly.told.nobody_of_open (phase ▸ trivial)
          exact .of_early (.nobody trivial finishes silent) id id id
            fun _ => orderly.listed (phase ▸ trivial)
  | gathering reason exitCode =>
      simp only [Stream.resume, phase] at step
      exact Option.some.inj step ▸
        orderly.of_fails (phase ▸ trivial) (.inr (phase ▸ trivial)) (fails_finalize _ _)
  | handling reason =>
      simp only [Stream.resume, phase] at step
      cases raised with
      | none =>
          exact Option.some.inj step ▸
            orderly.of_fails (phase ▸ trivial) (.inr (phase ▸ trivial)) (fails_finalize _ _)
      | some raised =>
          have lost : PhaseKept state (state.lose raised) := phaseKept_lose raised
          exact Option.some.inj step ▸
            (orderly.of_kept lost).of_fails (lost.phase ▸ phase ▸ trivial)
              (.inr (lost.phase ▸ phase ▸ trivial)) (fails_finalize _ _)
  | closing reason exitCode =>
      simp only [Stream.resume, phase] at step
      obtain ⟨finishes, silent⟩ := orderly.told.nobody_of_open (phase ▸ trivial)
      exact Option.some.inj step ▸
        ⟨.nobody trivial finishes silent, False.elim, fun _ => orderly.shutting (phase ▸ trivial),
          fun _ _ => rfl, fun _ => orderly.listed (phase ▸ trivial)⟩
  | awaiting reason exitCode =>
      simp only [Stream.resume, phase] at step
      obtain ⟨finishes, silent⟩ := orderly.told.nobody_of_open (phase ▸ trivial)
      have closed := orderly.closed (phase ▸ trivial)
      cases raised with
      | none =>
          exact Option.some.inj step ▸
            .of_unlisted (.nobody trivial finishes silent) id id closed
      | some raised =>
          have registered := orderly.listed (phase ▸ trivial) (orderly.shutting (phase ▸ trivial))
          exact Option.some.inj step ▸
            .of_unlisted (.failed rfl registered finishes silent) id id closed
  | unregistering reason exitCode =>
      simp only [Stream.resume, phase, Option.some.injEq] at step
      obtain ⟨finishes, silent⟩ := orderly.told.nobody_of_open (phase ▸ trivial)
      have closed := orderly.closed (phase ▸ trivial)
      split at step
      · rename_i claimed
        refine step ▸ .of_unlisted (.service rfl rfl ?_ claimed silent) id id closed
        simp [owed, finishes, claimed]
      · rename_i unclaimed
        refine step ▸ Orderly.sendClosed rfl ?_ silent closed
        simp [owed, finishes, unclaimed]
  | finishing reason exitCode =>
      simp only [Stream.resume, phase] at step
      obtain ⟨unregistered, finishes, silent⟩ := orderly.told.of_finishing phase
      exact Option.some.inj step ▸
        Orderly.sendClosed unregistered finishes silent (orderly.closed (phase ▸ trivial))
  | notifying =>
      simp only [Stream.resume, phase] at step
      obtain ⟨unregistered, reason, exitCode, finishes, told⟩ := orderly.told.of_ending (.inl phase)
      have closed := orderly.closed (phase ▸ trivial)
      cases raised with
      | none =>
          exact Option.some.inj step ▸
            .of_unlisted (.both (.inr (.inl rfl)) unregistered finishes told) id id closed
      | some raised =>
          exact Option.some.inj step ▸
            .of_unlisted (.both (.inr (.inr rfl)) unregistered finishes told) id id closed
  | hangingUp =>
      simp only [Stream.resume, phase] at step
      obtain ⟨unregistered, reason, exitCode, finishes, told⟩ := orderly.told.of_ending (.inr phase)
      exact Option.some.inj step ▸
        .of_unlisted (.both (.inr (.inr rfl)) unregistered finishes told) id id
          (orderly.closed (phase ▸ trivial))
  | finished =>
      simp only [Stream.resume, phase] at step
      cases step

/-- Once the service has been told the stream only has the client to tell. -/
theorem Told.resume_of_finished (told : Told state) (finished : state.finishes ≠ [])
    (step : state.resume raised = some next) : next.finishes = state.finishes := by
  cases told with
  | nobody phase finishes | failed phase registered finishes => exact absurd finishes finished
  | service phase =>
      simp only [Stream.resume, phase] at step
      obtain rfl := Option.some.inj step
      unfold Stream.sendClosed
      split <;> rfl
  | both phase =>
      rcases phase with phase | phase | phase
      · simp only [Stream.resume, phase] at step
        cases raised <;> exact Option.some.inj step ▸ rfl
      · simp only [Stream.resume, phase] at step
        exact Option.some.inj step ▸ rfl
      · simp only [Stream.resume, phase] at step
        cases step
  | serviceOnly phase =>
      simp only [Stream.resume, phase] at step
      cases step

/-- Once the client has been told the stream hands nothing to the socket. -/
theorem Told.resume_of_closed (told : Told state)
    (closed : closings state.sent ≠ []) (step : state.resume raised = some next) :
    next.sent = state.sent ∧ next.spawned = state.spawned ∧ next.cancelled = state.cancelled := by
  cases told with
  | nobody phase finishes silent | service phase unregistered finishes claimed silent
  | serviceOnly phase unregistered finishes silent | failed phase registered finishes silent =>
      exact absurd silent closed
  | both phase =>
      rcases phase with phase | phase | phase
      · simp only [Stream.resume, phase] at step
        cases raised <;> exact Option.some.inj step ▸ ⟨rfl, rfl, rfl⟩
      · simp only [Stream.resume, phase] at step
        exact Option.some.inj step ▸ ⟨rfl, rfl, rfl⟩
      · simp only [Stream.resume, phase] at step
        cases step

theorem Told.finishes_le_one (told : Told state) : state.finishes.length ≤ 1 := by
  have owed : ∀ {reason exitCode}, state.finishes = owed state reason exitCode →
      state.finishes.length ≤ 1 := fun finishes => by
    rw [finishes, Terminals.owed]
    split <;> simp
  cases told with
  | nobody phase finishes | failed phase registered finishes => simp [finishes]
  | service phase unregistered finishes | both phase unregistered finishes
  | serviceOnly phase unregistered finishes => exact owed finishes

/-- Only a stream that has been claimed is finished, and only when it is unregistered. -/
theorem Orderly.of_finished (orderly : Orderly state) (finished : state.finishes ≠ []) :
    state.claimed = true ∧ state.registered = false ∧
      (state.started = true → state.terminal.closed = true) := by
  have claimed : ∀ {reason exitCode}, state.finishes = owed state reason exitCode →
      state.claimed = true := fun finishes => by
    by_contra unclaimed
    exact finished (by rw [finishes, owed, if_neg unclaimed])
  cases orderly.told with
  | nobody phase finishes | failed phase registered finishes => exact absurd finishes finished
  | service phase unregistered finishes | serviceOnly phase unregistered finishes =>
      exact ⟨claimed finishes, unregistered, orderly.closed (phase ▸ trivial)⟩
  | both phase unregistered finishes =>
      refine ⟨claimed finishes, unregistered, orderly.closed ?_⟩
      rcases phase with phase | phase | phase <;> exact phase ▸ trivial

/-- The client is told what the service has been told, and only then. -/
theorem Told.of_closed (told : Told state) (closed : closings state.sent ≠ []) :
    ∃ reason exitCode, closings state.sent = [(reason, exitCode)] ∧
      (state.claimed = true → state.finishes = [(reason, exitCode)]) := by
  cases told with
  | nobody phase finishes silent | service phase unregistered finishes claimed silent
  | serviceOnly phase unregistered finishes silent | failed phase registered finishes silent =>
      exact absurd silent closed
  | both phase unregistered finishes told =>
      exact ⟨_, _, told, fun claimed => finishes.trans (if_pos claimed)⟩

/-- A stream that is over has told the service, or else has failed to close the terminal. -/
theorem Told.of_phase_finished (told : Told state) (ends : state.phase = .finished)
    (claimed : state.claimed = true) : state.finishes ≠ [] ∨ state.registered = true := by
  have owes : ∀ {reason exitCode}, state.finishes = owed state reason exitCode →
      state.finishes ≠ [] := fun finishes => by
    rw [finishes, owed, if_pos claimed]
    exact List.cons_ne_nil _ _
  cases told with
  | nobody phase => exact (ends ▸ phase : Open .finished).elim
  | service phase => exact nomatch ends.symm.trans phase
  | both phase unregistered finishes | serviceOnly phase unregistered finishes =>
      exact .inl (owes finishes)
  | failed phase registered => exact .inr registered

end Invariants

variable {tooDeep : Text → Bool} {limits : Limits}

theorem orderly_inductive : (streams tooDeep limits).Inductive Orderly where
  initial := by
    rintro _ ⟨clock, rfl⟩
    exact ⟨.nobody trivial rfl rfl, fun _ => rfl, nofun, nofun, nofun⟩
  preserved state action next orderly step := by
    cases isOwn : resumes action with
    | false => exact orderly.of_kept (phaseKept_of_step isOwn step)
    | true =>
        cases action with
        | resume raised => exact orderly.resume step
        | _ => cases isOwn

/-- Nothing reaches a PTY that is closed, and closed it stays. -/
theorem InputMoves.still {state next : Stream} (moves : InputMoves state next)
    (closed : state.terminal.closed = true) :
    next.terminal.closed = true ∧ next.terminal.input = state.terminal.input ∧
      next.terminal.columns = state.terminal.columns ∧
        next.terminal.rows = state.terminal.rows := by
  cases moves with
  | kept kept | gaveUp kept => exact ⟨kept.closed closed, kept.written, kept.columns, kept.rows⟩
  | received receiving accepts =>
      have same := accepts.kept closed
      exact ⟨accepts.closed.trans closed, accepts.written, congrArg (·.columns) same,
        congrArg (·.rows) same⟩
  | write writing isOpen => exact nomatch closed.symm.trans isOpen
  | writeStopped => exact ⟨closed, rfl, rfl, rfl⟩

section Runs

variable {state later : Stream}

theorem finishes_stay (orderly : Orderly state) (finished : state.finishes ≠ [])
    (run : (streams tooDeep limits).Leads state later) : later.finishes = state.finishes := by
  have kept : ∀ middle action next, Orderly middle → middle.finishes = state.finishes →
      (streams tooDeep limits).step middle action = some next →
        next.finishes = state.finishes := by
    intro middle action next orderly same step
    cases isOwn : resumes action with
    | false => exact (phaseKept_of_step isOwn step).finishes.trans same
    | true =>
        cases action with
        | resume raised =>
            exact (orderly.told.resume_of_finished (same ▸ finished) step).trans same
        | _ => cases isOwn
  exact System.Leads.preserves orderly_inductive kept orderly rfl run

theorem input_stays (orderly : Orderly state) (closed : state.terminal.closed = true)
    (run : (streams tooDeep limits).Leads state later) :
    later.terminal.input = state.terminal.input ∧
      later.terminal.columns = state.terminal.columns ∧
        later.terminal.rows = state.terminal.rows := by
  have kept : ∀ middle action next, Orderly middle →
      (middle.terminal.closed = true ∧ middle.terminal.input = state.terminal.input ∧
        middle.terminal.columns = state.terminal.columns ∧
          middle.terminal.rows = state.terminal.rows) →
      (streams tooDeep limits).step middle action = some next →
        (next.terminal.closed = true ∧ next.terminal.input = state.terminal.input ∧
          next.terminal.columns = state.terminal.columns ∧
            next.terminal.rows = state.terminal.rows) := by
    rintro middle action next - ⟨closed, input, columns, rows⟩ step
    obtain ⟨stays, still⟩ := (inputMoves_of_step step).still closed
    exact ⟨stays, still.1.trans input, still.2.1.trans columns, still.2.2.trans rows⟩
  exact (System.Leads.preserves orderly_inductive kept orderly ⟨closed, rfl, rfl, rfl⟩ run).2

theorem sent_stays (orderly : Orderly state) (closed : closings state.sent ≠ [])
    (stopped : state.spawned = true → state.cancelled = true)
    (run : (streams tooDeep limits).Leads state later) : later.sent = state.sent := by
  have kept : ∀ middle action next, Orderly middle →
      (middle.sent = state.sent ∧ (middle.spawned = true → middle.cancelled = true)) →
      (streams tooDeep limits).step middle action = some next →
        (next.sent = state.sent ∧ (next.spawned = true → next.cancelled = true)) := by
    rintro middle action next orderly ⟨same, stopped⟩ step
    cases isOwn : resumes action with
    | false =>
        have kept := phaseKept_of_step isOwn step
        refine ⟨?_, by rwa [kept.spawned, kept.cancelled]⟩
        rcases kept.silent with ⟨spawned, running⟩ | silent
        · exact nomatch running.symm.trans (stopped spawned)
        · exact silent.trans same
    | true =>
        cases action with
        | resume raised =>
            obtain ⟨silent, spawned, cancelled⟩ :=
              orderly.told.resume_of_closed (by rwa [same]) step
            exact ⟨silent.trans same, by rwa [spawned, cancelled]⟩
        | _ => cases isOwn
  exact (System.Leads.preserves orderly_inductive kept orderly ⟨rfl, stopped⟩ run).1

end Runs

/-! ## The results -/

/-- **How a web shell ends.**  In every reachable state the service has been told once at most,
only of a stream that it has given, when the stream could no longer be found and its terminal was
closed; the client has been told once at most, and what the service had been told before.  A
stream that was given and is over has told the service, unless closing the terminal has failed. -/
theorem closes_in_order {state : Stream} (reachable : (streams tooDeep limits).Reachable state) :
    (state.finishes.length ≤ 1 ∧
      (state.finishes ≠ [] → state.claimed = true ∧ state.registered = false ∧
        (state.started = true → state.terminal.closed = true))) ∧
    (closings state.sent ≠ [] → ∃ reason exitCode, closings state.sent = [(reason, exitCode)] ∧
      (state.claimed = true → state.finishes = [(reason, exitCode)])) ∧
    (state.phase = .finished → state.claimed = true →
      state.finishes ≠ [] ∨ state.registered = true) := by
  have orderly := orderly_inductive.of_reachable reachable
  exact ⟨⟨orderly.told.finishes_le_one, orderly.of_finished⟩, orderly.told.of_closed,
    orderly.told.of_phase_finished⟩

/-- **What comes after the end.**  Once the service has been told, it is not told again, and
nothing reaches the PTY any more.  Once the client has been told, nothing is handed to the socket
any more, if the tasks that were left have been cancelled. -/
theorem quiet_after_end {state later : Stream}
    (reachable : (streams tooDeep limits).Reachable state)
    (run : (streams tooDeep limits).Leads state later) :
    (state.finishes ≠ [] → later.finishes = state.finishes ∧
      (state.started = true → later.terminal.input = state.terminal.input ∧
        later.terminal.columns = state.terminal.columns ∧
          later.terminal.rows = state.terminal.rows)) ∧
    (closings state.sent ≠ [] → (state.spawned = true → state.cancelled = true) →
      later.sent = state.sent) := by
  have orderly := orderly_inductive.of_reachable reachable
  refine ⟨fun finished => ⟨finishes_stay orderly finished run, fun started => ?_⟩,
    fun closed stopped => sent_stays orderly closed stopped run⟩
  exact input_stays orderly ((orderly.of_finished finished).2.2 started) run

/-- The client types and leaves, and the stream ends. -/
def left : List StreamAction :=
  opened ++ [.receive (.binary [108, 115]), .write 2,
    .receive (.text (text "\x7b\"type\":\"close\"\x7d")), .resume none, .resume none, .resume none,
    .resume none, .resume none, .resume none]

theorem closes_in_order_left : ∃ state : Stream,
    (streams (fun _ => false) ⟨seconds 3600, seconds 600⟩).Reachable state ∧
      state.finishes = [(.userRequested, none)] ∧ closings state.sent = [(.userRequested, none)] ∧
        state.terminal.closed = true := by
  have ran : ((streams (fun _ => false) ⟨seconds 3600, seconds 600⟩).exec { clock := 0 }
      left).any (fun state => decide (closings state.sent = [(.userRequested, none)] ∧
        state.claimed = true ∧ state.started = true)) = true := by
    decide +kernel
  obtain ⟨state, left, facts⟩ := (Option.any_eq_true _ _).mp ran
  obtain ⟨told, claimed, started⟩ := of_decide_eq_true facts
  have reached : (streams (fun _ => false) ⟨seconds 3600, seconds 600⟩).Reachable state :=
    ⟨_, ⟨0, rfl⟩, System.leads_of_exec left⟩
  obtain ⟨⟨-, finished⟩, before, -⟩ := closes_in_order reached
  obtain ⟨reason, exitCode, same, service⟩ := before (by rw [told]; exact List.cons_ne_nil _ _)
  have finishes : state.finishes = closings state.sent := (service claimed).trans same.symm
  refine ⟨state, reached, finishes.trans told, told, ?_⟩
  exact (finished (by rw [finishes, told]; exact List.cons_ne_nil _ _)).2.2 started

theorem quiet_after_end_left : ∃ state later : Stream,
    (streams (fun _ => false) ⟨seconds 3600, seconds 600⟩).Leads state later ∧
      later.phase = .finished ∧ later.finishes = [(.userRequested, none)] ∧
        later.sent = state.sent ∧ later.terminal.input = [108, 115] := by
  have ran : ((streams (fun _ => false) ⟨seconds 3600, seconds 600⟩).exec { clock := 0 }
      left).any (fun state => decide (state.finishes = [(.userRequested, none)] ∧
        state.terminal.input = [108, 115] ∧ closings state.sent = [(.userRequested, none)] ∧
          state.cancelled = true ∧ state.started = true ∧
        ((streams (fun _ => false) ⟨seconds 3600, seconds 600⟩).exec state
          [.emit [104, 105], .resume none, .resume none]).any
            fun later => decide (later.phase = .finished))) = true := by
    decide +kernel
  obtain ⟨state, left, facts⟩ := (Option.any_eq_true _ _).mp ran
  obtain ⟨finishes, input, told, cancelled, started, goesOn⟩ := of_decide_eq_true facts
  obtain ⟨later, further, ends⟩ := (Option.any_eq_true _ _).mp goesOn
  have reached : (streams (fun _ => false) ⟨seconds 3600, seconds 600⟩).Reachable state :=
    ⟨_, ⟨0, rfl⟩, System.leads_of_exec left⟩
  have run := System.leads_of_exec further
  obtain ⟨finished, closed⟩ := quiet_after_end reached run
  obtain ⟨stay, still⟩ := finished (by rw [finishes]; exact List.cons_ne_nil _ _)
  exact ⟨state, later, run, of_decide_eq_true ends, stay.trans finishes,
    closed (by rw [told]; exact List.cons_ne_nil _ _) fun _ => cancelled,
    (still started).1.trans input⟩

end OpsComposer.Terminals
