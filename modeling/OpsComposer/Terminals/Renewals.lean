import OpsComposer.Terminals.Closing

/-!
# How a web shell is renewed

The monitor of a stream wakes every second, and renews the lease of the session when it is due.

* `renews_within_limits` — every renewal comes before the stream has lasted too long and before it
  has been idle for too long, at least ten seconds after the renewal before it; once the monitor
  has ended, or the tasks have been cancelled, there is none any more.
-/

set_option autoImplicit false

namespace OpsComposer.Terminals

open Domain Foundations Services
  Services.WebShellManager

/-! ## What a step does to the monitor -/

/-- The monitor stays where it is; time may pass, and somebody may be active. -/
structure MonitorKept (state next : Stream) : Prop where
  monitor : next.monitor = state.monitor
  heartbeats : next.heartbeats = state.heartbeats
  nextHeartbeat : next.nextHeartbeat = state.nextHeartbeat
  startedMonotonic : next.startedMonotonic = state.startedMonotonic
  spawned : next.spawned = state.spawned
  cancelled : state.cancelled = true → next.cancelled = true
  clock : state.clock ≤ next.clock
  activity : state.lastActivityMonotonic ≤ state.clock →
    next.lastActivityMonotonic ≤ next.clock

/-- The stream has not created its tasks yet. -/
def Early : Phase → Prop
  | .claiming | .accepting | .confirming | .starting | .registering | .readying => True
  | _ => False

/-- What one step does to the monitor. -/
inductive MonitorMoves (limits : Limits) (state : Stream) : Stream → Prop where
  | kept {next : Stream} (kept : MonitorKept state next) : MonitorMoves limits state next
  | started (starting : state.phase = .starting) :
      MonitorMoves limits state { state with
        started := true
        startedMonotonic := state.clock
        lastActivityMonotonic := state.clock
        phase := .registering }
  | spawned (readying : state.phase = .readying) :
      MonitorMoves limits state { state with
        spawned := true
        monitor := .sleeping (state.clock + seconds 1)
        nextHeartbeat := state.clock
        phase := .serving }
  | ended (runs : state.Runs) {next : Stream} {reason : WebShellCloseReason}
      (kept : MonitorKept state { next with monitor := state.monitor })
      (ends : next.monitor = .ended reason) (others : ∀ reason, state.monitor ≠ .ended reason) :
      MonitorMoves limits state next
  | sleeps (runs : state.Runs) {wakeAt : Nat} (sleeping : state.monitor = .sleeping wakeAt) :
      MonitorMoves limits state { state with
        monitor := .sleeping (state.clock + seconds 1) }
  | beats (runs : state.Runs) {wakeAt : Nat} (sleeping : state.monitor = .sleeping wakeAt)
      (lasts : state.clock - state.startedMonotonic < limits.maxDuration)
      (active : state.clock - state.lastActivityMonotonic < limits.idleTimeout)
      (due : state.nextHeartbeat ≤ state.clock) :
      MonitorMoves limits state { state with
        monitor := .beating state.clock
        heartbeats := state.heartbeats ++ [(state.clock, state.lastActivityMonotonic)] }
  | renewed (runs : state.Runs) {now : Nat} (beating : state.monitor = .beating now) :
      MonitorMoves limits state { state with
        monitor := .sleeping (state.clock + seconds 1)
        nextHeartbeat := now + seconds heartbeatSeconds }

section Steps

variable {tooDeep : Text → Bool} {limits : Limits} {state next : Stream}

theorem MonitorKept.same (next : Stream) (monitor : next.monitor = state.monitor := by rfl)
    (heartbeats : next.heartbeats = state.heartbeats := by rfl)
    (nextHeartbeat : next.nextHeartbeat = state.nextHeartbeat := by rfl)
    (startedMonotonic : next.startedMonotonic = state.startedMonotonic := by rfl)
    (spawned : next.spawned = state.spawned := by rfl)
    (cancelled : next.cancelled = state.cancelled := by rfl)
    (clock : next.clock = state.clock := by rfl)
    (activity : next.lastActivityMonotonic = state.lastActivityMonotonic := by rfl) :
    MonitorKept state next :=
  ⟨monitor, heartbeats, nextHeartbeat, startedMonotonic, spawned, cancelled.trans, clock.ge,
    fun known => by rwa [activity, clock]⟩

theorem MonitorKept.trans {middle : Stream} (kept : MonitorKept state middle)
    (after : MonitorKept middle next) : MonitorKept state next where
  monitor := after.monitor.trans kept.monitor
  heartbeats := after.heartbeats.trans kept.heartbeats
  nextHeartbeat := after.nextHeartbeat.trans kept.nextHeartbeat
  startedMonotonic := after.startedMonotonic.trans kept.startedMonotonic
  spawned := after.spawned.trans kept.spawned
  cancelled cancelled := after.cancelled (kept.cancelled cancelled)
  clock := kept.clock.trans after.clock
  activity known := after.activity (kept.activity known)

/-- What only concerns the socket or where the stream is. -/
theorem monitorKept_sendError (code message : String) :
    MonitorKept state (state.sendError code message) := by
  unfold Stream.sendError
  split <;> exact .same _

theorem monitorKept_rejectOrSendError (code message : String) :
    MonitorKept state (state.rejectOrSendError code message) := by
  unfold Stream.rejectOrSendError
  split
  · exact .same _
  · exact monitorKept_sendError code message

theorem monitorKept_lose (raised : Fault) : MonitorKept state (state.lose raised) := by
  unfold Stream.lose
  split <;> exact .same _

theorem monitorKept_fail (raised : Fault) : MonitorKept state (state.fail raised) := by
  have finalized : MonitorKept state (state.finalize .clientDisconnected none) :=
    .same _
  cases raised with
  | opsError code publicMessage | runtimeError | other =>
      exact (monitorKept_rejectOrSendError _ _).trans (.same _)
  | startError =>
      exact (monitorKept_sendError _ _).trans (.same _)
  | disconnected => exact finalized

theorem monitorKept_refuse (code message : String) :
    MonitorKept state (state.refuse code message) :=
  (monitorKept_sendError code message).trans (.same _)

theorem monitorKept_accept (message : Message) :
    MonitorKept state (state.accept tooDeep message) := by
  have touched : ∀ next : Stream, next.monitor = state.monitor →
      next.heartbeats = state.heartbeats → next.nextHeartbeat = state.nextHeartbeat →
      next.startedMonotonic = state.startedMonotonic → next.spawned = state.spawned →
      next.cancelled = state.cancelled → next.clock = state.clock →
      next.lastActivityMonotonic = next.clock → MonitorKept state next :=
    fun _ monitor heartbeats nextHeartbeat startedMonotonic spawned cancelled clock now =>
      ⟨monitor, heartbeats, nextHeartbeat, startedMonotonic, spawned, cancelled.trans, clock.ge,
        fun _ => now.le⟩
  cases message with
  | disconnect | other => exact .same _
  | binary data =>
      simp only [Stream.accept]
      split
      · exact monitorKept_refuse _ _
      · split
        · exact .same _
        · exact touched _ rfl rfl rfl rfl rfl rfl rfl rfl
  | text value =>
      simp only [Stream.accept]
      split
      · exact .same _
      · split
        · exact .same _
        · split
          · exact .same _
          · exact monitorKept_refuse _ _
          · exact .same _
          · split
            · exact touched _ rfl rfl rfl rfl rfl rfl rfl rfl
            · exact touched _ rfl rfl rfl rfl rfl rfl rfl rfl

theorem monitorMoves_of_resume {raised : Option Fault}
    (step : state.resume raised = some next) : MonitorMoves limits state next := by
  cases phase : state.phase with
  | claiming =>
      simp only [Stream.resume, phase] at step
      cases raised with
      | none => exact Option.some.inj step ▸ .kept (.same _)
      | some raised => exact Option.some.inj step ▸ .kept (monitorKept_fail raised)
  | accepting | confirming =>
      simp only [Stream.resume, phase] at step
      cases raised with
      | none => exact Option.some.inj step ▸ .kept (.same _)
      | some raised =>
          exact Option.some.inj step ▸
            .kept ((monitorKept_lose raised).trans (monitorKept_fail raised))
  | starting =>
      simp only [Stream.resume, phase] at step
      cases raised with
      | none => exact Option.some.inj step ▸ .started phase
      | some raised => exact Option.some.inj step ▸ .kept (monitorKept_fail raised)
  | registering | gathering reason exitCode | closing reason exitCode | hangingUp =>
      simp only [Stream.resume, phase] at step
      exact Option.some.inj step ▸ .kept (.same _)
  | readying =>
      simp only [Stream.resume, phase] at step
      cases raised with
      | none => exact Option.some.inj step ▸ .spawned phase
      | some raised =>
          exact Option.some.inj step ▸
            .kept ((monitorKept_lose raised).trans (monitorKept_fail raised))
  | serving =>
      simp only [Stream.resume, phase] at step
      obtain ⟨outcome, -, rfl⟩ := Option.map_eq_some_iff.mp step
      cases outcome with
      | error raised => exact .kept (monitorKept_fail raised)
      | ok answer => exact .kept ⟨rfl, rfl, rfl, rfl, rfl, fun _ => rfl, Nat.le_refl _, id⟩
  | handling reason =>
      simp only [Stream.resume, phase] at step
      cases raised with
      | none => exact Option.some.inj step ▸ .kept (.same _)
      | some raised =>
          exact Option.some.inj step ▸
            .kept ((monitorKept_lose raised).trans (.same _))
  | awaiting reason exitCode | notifying =>
      simp only [Stream.resume, phase] at step
      cases raised <;>
        exact Option.some.inj step ▸ .kept (.same _)
  | unregistering reason exitCode =>
      simp only [Stream.resume, phase, Option.some.injEq] at step
      split at step
      · exact step ▸ .kept (.same _)
      · subst step
        unfold Stream.sendClosed
        split <;> exact .kept (.same _)
  | finishing reason exitCode =>
      simp only [Stream.resume, phase] at step
      obtain rfl := Option.some.inj step
      unfold Stream.sendClosed
      split <;> exact .kept (.same _)
  | finished =>
      simp only [Stream.resume, phase] at step
      cases step

theorem monitorMoves_of_wake (step : state.wake limits = some next) :
    MonitorMoves limits state next := by
  simp only [Stream.wake] at step
  split at step
  · rename_i wakeAt sleeping
    split at step
    · rename_i able
      have ends : ∀ reason, MonitorMoves limits state { state with monitor := .ended reason } :=
        fun reason => .ended able.1 (.same _) rfl
          (by simp [sleeping])
      split at step
      · exact Option.some.inj step ▸ ends _
      · split at step
        · exact Option.some.inj step ▸ ends _
        · rename_i lasts
          split at step
          · exact Option.some.inj step ▸ ends _
          · rename_i active
            split at step
            · exact Option.some.inj step ▸ .sleeps able.1 sleeping
            · rename_i due
              exact Option.some.inj step ▸
                .beats able.1 sleeping (Nat.not_le.mp lasts) (Nat.not_le.mp active)
                  (Nat.not_lt.mp due)
    · cases step
  · cases step

theorem monitorMoves_of_beaten {answer : Option (Option WebShellService.CloseReason)}
    (step : state.beaten answer = some next) : MonitorMoves limits state next := by
  simp only [Stream.beaten] at step
  split at step
  · rename_i now beating
    split at step
    · rename_i runs
      have ends : ∀ reason, MonitorMoves limits state { state with monitor := .ended reason } :=
        fun reason => .ended runs (.same _) rfl
          (by simp [beating])
      split at step
      · exact Option.some.inj step ▸ ends _
      · exact Option.some.inj step ▸ ends _
      · exact Option.some.inj step ▸ .renewed runs beating
    · cases step
  · cases step

theorem monitorMoves_of_step {action : StreamAction}
    (step : state.step tooDeep limits action = some next) : MonitorMoves limits state next := by
  cases action with
  | tick elapsed =>
      exact Option.some.inj step ▸ .kept ⟨rfl, rfl, rfl, rfl, rfl, id, Nat.le_add_right _ _,
        fun known => known.trans (Nat.le_add_right _ _)⟩
  | emit data | exit code | request reason | closeTerminal | readEnd | readFailed | joined
  | receiveFailed raised =>
      exact of_guard step fun _ => .kept (.same _)
  | hangUp | shutdown => exact Option.some.inj step ▸ .kept (.same _)
  | read length =>
      exact of_guard step fun _ =>
        .kept ⟨rfl, rfl, rfl, rfl, rfl, id, Nat.le_refl _, fun _ => Nat.le_refl _⟩
  | put =>
      simp only [Stream.step, Stream.put] at step
      split at step
      · split at step
        · exact Option.some.inj step ▸ .kept (.same _)
        · exact Option.some.inj step ▸ .kept (.same _)
        · cases step
      · cases step
  | take =>
      simp only [Stream.step, Stream.take] at step
      split at step
      · split at step
        · cases step
        · exact Option.some.inj step ▸ .kept (.same _)
        · split at step
          · exact Option.some.inj step ▸ .kept (.same _)
          · exact Option.some.inj step ▸ .kept (.same _)
      · cases step
  | delivered raised =>
      simp only [Stream.step, Stream.delivered] at step
      split at step
      · split at step
        · cases raised with
          | none => exact Option.some.inj step ▸ .kept (.same _)
          | some raised =>
              exact Option.some.inj step ▸
                .kept ((monitorKept_lose raised).trans (.same _))
        · cases step
      · cases step
  | sendTimeout | left | write length | writeStopped | writeFailed =>
      simp only [Stream.step, Stream.sendTimeout, Stream.left, Stream.write, Stream.writeStopped,
        Stream.writeFailed] at step
      split at step
      · exact of_guard step fun _ => .kept (.same _)
      · cases step
  | receive message =>
      refine of_guard step fun _ => .kept ?_
      have received : MonitorKept state { state with received := state.received ++ [message] } :=
        .same _
      exact received.trans (monitorKept_accept message)
  | refused raised =>
      simp only [Stream.step, Stream.refused] at step
      split at step
      · cases raised with
        | none => exact Option.some.inj step ▸ .kept (.same _)
        | some raised =>
            exact Option.some.inj step ▸
              .kept ((monitorKept_lose raised).trans (.same _))
      · cases step
  | wake => exact monitorMoves_of_wake step
  | beaten answer => exact monitorMoves_of_beaten step
  | reap =>
      simp only [Stream.step, Stream.reap] at step
      split at step
      · obtain ⟨code, -, rfl⟩ := Option.map_eq_some_iff.mp step
        exact .kept (.same _)
      · cases step
  | resume raised => exact monitorMoves_of_resume step

end Steps

/-! ## Invariants -/

/-- Before a stream has created its tasks there is no monitor. -/
structure Unspawned (state : Stream) : Prop where
  early : Early state.phase → state.spawned = false
  silent : state.spawned = false →
    state.heartbeats = [] ∧ ∃ wakeAt, state.monitor = .sleeping wakeAt

/-- The monitor keeps to its times. -/
structure Paced (limits : Limits) (state : Stream) : Prop where
  started : state.startedMonotonic ≤ state.clock
  activity : state.lastActivityMonotonic ≤ state.clock
  within : ∀ beat ∈ state.heartbeats, state.startedMonotonic ≤ beat.1 ∧
    beat.1 < state.startedMonotonic + limits.maxDuration ∧
      beat.2 ≤ beat.1 ∧ beat.1 < beat.2 + limits.idleTimeout
  past : ∀ beat ∈ state.heartbeats, beat.1 ≤ state.clock
  spaced : state.heartbeats.Pairwise fun former latter =>
    former.1 + seconds heartbeatSeconds ≤ latter.1
  next : ∀ wakeAt, state.monitor = .sleeping wakeAt → ∀ beat ∈ state.heartbeats,
    beat.1 + seconds heartbeatSeconds ≤ state.nextHeartbeat
  beating : ∀ now, state.monitor = .beating now → ∀ beat ∈ state.heartbeats, beat.1 ≤ now

section Invariants

variable {tooDeep : Text → Bool} {limits : Limits} {state next : Stream}

theorem Fails.late (fails : Fails state next) : ¬ Early next.phase := by
  rcases fails.phase with ⟨reason, phase⟩ | ⟨reason, exitCode, phase, -⟩ |
    ⟨reason, exitCode, phase, -⟩
  all_goals
    rw [phase]
    exact id

theorem early_of_sendClosed {reason : WebShellCloseReason} {exitCode : Option Int} :
    ¬ Early (state.sendClosed reason exitCode).phase := by
  unfold Stream.sendClosed
  split <;> exact id

/-- There is no way back to the beginning. -/
theorem early_of_resume {raised : Option Fault} (step : state.resume raised = some next)
    (early : Early next.phase) : Early state.phase ∧ next.spawned = state.spawned := by
  cases phase : state.phase with
  | claiming | accepting | confirming | starting =>
      simp only [Stream.resume, phase] at step
      cases raised with
      | none => exact Option.some.inj step ▸ ⟨trivial, rfl⟩
      | some raised =>
          exact absurd early (Option.some.inj step ▸ (fails_fail raised).late)
  | registering =>
      simp only [Stream.resume, phase] at step
      exact Option.some.inj step ▸ ⟨trivial, rfl⟩
  | readying =>
      simp only [Stream.resume, phase] at step
      cases raised with
      | none => exact absurd early (Option.some.inj step ▸ id)
      | some raised =>
          exact absurd early (Option.some.inj step ▸ (fails_fail raised).late)
  | serving =>
      simp only [Stream.resume, phase] at step
      obtain ⟨outcome, -, rfl⟩ := Option.map_eq_some_iff.mp step
      cases outcome with
      | error raised => exact absurd early (fails_fail raised).late
      | ok answer => exact early.elim
  | gathering reason exitCode =>
      simp only [Stream.resume, phase] at step
      exact absurd early (Option.some.inj step ▸ (fails_finalize _ _).late)
  | handling reason =>
      simp only [Stream.resume, phase] at step
      cases raised with
      | none | some raised => exact absurd early (Option.some.inj step ▸ (fails_finalize _ _).late)
  | closing reason exitCode | hangingUp =>
      simp only [Stream.resume, phase] at step
      exact absurd early (Option.some.inj step ▸ id)
  | awaiting reason exitCode | notifying =>
      simp only [Stream.resume, phase] at step
      cases raised <;> exact absurd early (Option.some.inj step ▸ id)
  | unregistering reason exitCode =>
      simp only [Stream.resume, phase, Option.some.injEq] at step
      split at step
      · exact absurd early (step ▸ id)
      · exact absurd early (step ▸ early_of_sendClosed)
  | finishing reason exitCode =>
      simp only [Stream.resume, phase] at step
      exact absurd early (Option.some.inj step ▸ early_of_sendClosed)
  | finished =>
      simp only [Stream.resume, phase] at step
      cases step

theorem unspawned_inductive : (streams tooDeep limits).Inductive Unspawned where
  initial := by
    rintro _ ⟨clock, rfl⟩
    exact ⟨fun _ => rfl, fun _ => ⟨rfl, 0, rfl⟩⟩
  preserved state action next unspawned step := by
    refine ⟨fun early => ?_, ?_⟩
    · cases isOwn : resumes action with
      | false =>
          have kept := phaseKept_of_step isOwn step
          exact kept.spawned.trans (unspawned.early (kept.phase ▸ early))
      | true =>
          cases action with
          | resume raised =>
              obtain ⟨early, same⟩ := early_of_resume step early
              exact same.trans (unspawned.early early)
          | _ => cases isOwn
    · have idle : state.Runs → state.spawned ≠ false := fun runs unspawned =>
        nomatch runs.1.symm.trans unspawned
      cases monitorMoves_of_step step with
      | kept kept =>
          rw [kept.spawned, kept.heartbeats, kept.monitor]
          exact unspawned.silent
      | started starting => exact unspawned.silent
      | spawned readying => exact nofun
      | ended runs kept ends others =>
          rw [show next.spawned = state.spawned from kept.spawned]
          exact fun unspawned => absurd unspawned (idle runs)
      | sleeps runs | beats runs | renewed runs =>
          exact fun unspawned => absurd unspawned (idle runs)

theorem Paced.of_kept (paced : Paced limits state) (kept : MonitorKept state next) :
    Paced limits next := by
  refine ⟨?_, kept.activity paced.activity, ?_, ?_, ?_, ?_, ?_⟩
  · exact kept.startedMonotonic ▸ paced.started.trans kept.clock
  · rw [kept.heartbeats, kept.startedMonotonic]
    exact paced.within
  · rw [kept.heartbeats]
    exact fun beat member => (paced.past beat member).trans kept.clock
  · rw [kept.heartbeats]
    exact paced.spaced
  · rw [kept.heartbeats, kept.monitor, kept.nextHeartbeat]
    exact paced.next
  · rw [kept.heartbeats, kept.monitor]
    exact paced.beating

/-- The lease is renewed. -/
theorem Paced.beats (paced : Paced limits state) {wakeAt : Nat}
    (sleeping : state.monitor = .sleeping wakeAt)
    (lasts : state.clock - state.startedMonotonic < limits.maxDuration)
    (active : state.clock - state.lastActivityMonotonic < limits.idleTimeout)
    (due : state.nextHeartbeat ≤ state.clock) :
    Paced limits { state with
      monitor := .beating state.clock
      heartbeats := state.heartbeats ++ [(state.clock, state.lastActivityMonotonic)] } := by
  have isStarted := paced.started
  have isActive := paced.activity
  have splits : ∀ {beat}, beat ∈ state.heartbeats ++ [(state.clock, state.lastActivityMonotonic)] →
      beat ∈ state.heartbeats ∨ beat = (state.clock, state.lastActivityMonotonic) := by
    simp
  have past : ∀ beat ∈ state.heartbeats ++ [(state.clock, state.lastActivityMonotonic)],
      beat.1 ≤ state.clock := by
    intro beat member
    rcases splits member with old | rfl
    · exact paced.past beat old
    · exact Nat.le_refl _
  refine ⟨isStarted, isActive, ?_, past, ?_, nofun, fun _ same => ?_⟩
  · intro beat member
    rcases splits member with old | rfl
    · exact paced.within beat old
    · refine ⟨isStarted, ?_, isActive, ?_⟩
      · show state.clock < state.startedMonotonic + _
        omega
      · show state.clock < state.lastActivityMonotonic + _
        omega
  · refine List.pairwise_append.mpr ⟨paced.spaced, List.pairwise_singleton _ _, ?_⟩
    intro former earlier latter now
    obtain rfl := List.mem_singleton.mp now
    exact (paced.next wakeAt sleeping former earlier).trans due
  · exact Monitor.beating.inj same ▸ past

theorem Paced.moves (paced : Paced limits state) (unspawned : Unspawned state)
    (moves : MonitorMoves limits state next) : Paced limits next := by
  have none : Early state.phase → state.heartbeats = [] := fun early =>
    (unspawned.silent (unspawned.early early)).1
  cases moves with
  | kept kept => exact paced.of_kept kept
  | started starting =>
      have none := none (starting ▸ trivial)
      exact
        { started := Nat.le_refl _
          activity := Nat.le_refl _
          within := by simp [none]
          past := paced.past
          spaced := paced.spaced
          next := paced.next
          beating := paced.beating }
  | spawned readying =>
      have none := none (readying ▸ trivial)
      exact { paced with next := by simp [none], beating := nofun }
  | ended runs kept ends others =>
      exact { paced.of_kept kept with next := by simp [ends], beating := by simp [ends] }
  | sleeps runs sleeping =>
      exact { paced with next := fun _ _ => paced.next _ sleeping, beating := nofun }
  | beats runs sleeping lasts active due => exact paced.beats sleeping lasts active due
  | renewed runs beating =>
      have known := paced.beating _ beating
      exact { paced with
        next := fun _ _ beat member => Nat.add_le_add_right (known beat member) _
        beating := nofun }

theorem paced_inductive :
    (streams tooDeep limits).Inductive fun state => Unspawned state ∧ Paced limits state :=
  unspawned_inductive.strengthen
    (by
      rintro _ ⟨clock, rfl⟩
      exact ⟨Nat.zero_le _, Nat.zero_le _, nofun, nofun, .nil, nofun, nofun⟩)
    fun _ _ _ unspawned paced step => paced.moves unspawned (monitorMoves_of_step step)

/-- The monitor has ended, or is told to. -/
def Stopped (state : Stream) : Prop :=
  (∃ reason, state.monitor = .ended reason) ∨ state.cancelled = true

theorem Stopped.moves (stopped : Stopped state) (moves : MonitorMoves limits state next)
    (unspawned : Unspawned state) : Stopped next ∧ next.heartbeats = state.heartbeats := by
  have idle : state.Runs → ∃ reason, state.monitor = .ended reason := fun runs =>
    stopped.resolve_right fun cancelled => nomatch runs.2.symm.trans cancelled
  cases moves with
  | kept kept =>
      refine ⟨stopped.imp ?_ kept.cancelled, kept.heartbeats⟩
      rw [kept.monitor]
      exact id
  | started starting => exact ⟨stopped, rfl⟩
  | spawned readying =>
      refine ⟨.inr (stopped.resolve_left ?_), rfl⟩
      rintro ⟨reason, ended⟩
      obtain ⟨wakeAt, sleeping⟩ :=
        (unspawned.silent (unspawned.early (readying ▸ trivial))).2
      exact nomatch ended.symm.trans sleeping
  | ended runs kept ends others => exact ⟨.inl ⟨_, ends⟩, kept.heartbeats⟩
  | sleeps runs sleeping | beats runs sleeping =>
      obtain ⟨reason, ended⟩ := idle runs
      exact nomatch ended.symm.trans sleeping
  | renewed runs beating =>
      obtain ⟨reason, ended⟩ := idle runs
      exact nomatch ended.symm.trans beating

/-! ## The result -/

theorem heartbeats_stay {later : Stream} (known : Unspawned state ∧ Paced limits state)
    (stopped : Stopped state) (run : (streams tooDeep limits).Leads state later) :
    later.heartbeats = state.heartbeats := by
  have kept : ∀ middle action next, (Unspawned middle ∧ Paced limits middle) →
      (Stopped middle ∧ middle.heartbeats = state.heartbeats) →
      (streams tooDeep limits).step middle action = some next →
        (Stopped next ∧ next.heartbeats = state.heartbeats) := by
    rintro middle action next ⟨unspawned, -⟩ ⟨stopped, same⟩ step
    obtain ⟨stays, still⟩ := stopped.moves (monitorMoves_of_step step) unspawned
    exact ⟨stays, still.trans same⟩
  exact (System.Leads.preserves paced_inductive kept known ⟨stopped, rfl⟩ run).2

end Invariants

variable {tooDeep : Text → Bool} {limits : Limits}

/-- **How a web shell is renewed.**  In every reachable state every renewal of the lease came
before the stream had lasted as long as it may and before it had been idle as long as it may, and
at least ten seconds after the renewal before it; and once the monitor has ended, or the tasks
have been cancelled, none comes any more. -/
theorem renews_within_limits {state later : Stream}
    (reachable : (streams tooDeep limits).Reachable state)
    (run : (streams tooDeep limits).Leads state later) :
    (∀ beat ∈ state.heartbeats, state.startedMonotonic ≤ beat.1 ∧
      beat.1 < state.startedMonotonic + limits.maxDuration ∧
        beat.2 ≤ beat.1 ∧ beat.1 < beat.2 + limits.idleTimeout) ∧
    (state.heartbeats.Pairwise fun former latter =>
      former.1 + seconds heartbeatSeconds ≤ latter.1) ∧
    ((∃ reason, state.monitor = .ended reason) ∨ state.cancelled = true →
      later.heartbeats = state.heartbeats) := by
  have known := paced_inductive.of_reachable reachable
  exact ⟨known.2.within, known.2.spaced, fun stopped => heartbeats_stay known stopped run⟩

/-- A session is renewed twice, the second time to be told to close. -/
def renewed : List StreamAction :=
  opened ++ [.tick (seconds 1), .wake, .beaten (some none), .tick (seconds 10), .wake,
    .beaten (some (some .userRequested))]

theorem renews_within_limits_renewed : ∃ state later : Stream,
    (streams (fun _ => false) ⟨seconds 3600, seconds 600⟩).Leads state later ∧
      later.cancelled = true ∧ later.heartbeats = [(seconds 1, 0), (seconds 11, 0)] ∧
        ∀ beat ∈ state.heartbeats, beat.1 < state.startedMonotonic + seconds 3600 := by
  have ran : ((streams (fun _ => false) ⟨seconds 3600, seconds 600⟩).exec { clock := 0 }
      renewed).any (fun state => decide (state.heartbeats = [(seconds 1, 0), (seconds 11, 0)] ∧
        state.monitor = .ended .userRequested ∧
        ((streams (fun _ => false) ⟨seconds 3600, seconds 600⟩).exec state
          [.tick (seconds 10), .resume none]).any fun later => later.cancelled)) = true := by
    decide +kernel
  obtain ⟨state, renewed, facts⟩ := (Option.any_eq_true _ _).mp ran
  obtain ⟨heartbeats, ended, goesOn⟩ := of_decide_eq_true facts
  obtain ⟨later, further, cancelled⟩ := (Option.any_eq_true _ _).mp goesOn
  have reached : (streams (fun _ => false) ⟨seconds 3600, seconds 600⟩).Reachable state :=
    ⟨_, ⟨0, rfl⟩, System.leads_of_exec renewed⟩
  have run := System.leads_of_exec further
  obtain ⟨within, -, stay⟩ := renews_within_limits reached run
  exact ⟨state, later, run, cancelled, (stay (.inl ⟨_, ended⟩)).trans heartbeats,
    fun beat member => (within beat member).2.1⟩

end OpsComposer.Terminals
