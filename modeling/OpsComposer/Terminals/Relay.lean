import OpsComposer.Terminals.Steps

/-!
# What a web shell relays

Between the remote side and the browser there are a reader, a bounded queue and a pump, and in
the other direction a loop that writes what it receives.

* `relays_bytes` — what has been handed to the socket is, byte for byte, the beginning of what the
  remote side has written, in frames of a bounded size and with a bounded amount under way; and
  all of it, once the pump has seen the end and nobody has closed the terminal.  What has been
  written to the PTY is the beginning of what the client has sent, and the PTY never gets a size
  out of bounds.
-/

set_option autoImplicit false

namespace OpsComposer.Terminals

open Domain Foundations Services
  Services.WebShellManager

/-! ## What is kept -/

/-- Where the output stands. -/
structure OutputRelayed (state : Stream) : Prop where
  /-- While the pump runs, every byte is in one place. -/
  flows : Pumps state.output → state.produced =
    (binaries state.sent).flatten ++ (underWay state ++ state.terminal.pending)
  ahead : (binaries state.sent).flatten <+: state.produced
  fits : ∀ data ∈ binaries state.sent, Fits data
  queued : ∀ data, some data ∈ state.queue → Fits data
  bounded : state.queue.length ≤ queueSize
  reading : ∀ data, state.reader = .putting data → Fits data
  /-- The reader ends at the end, and puts the mark into the queue last. -/
  exhausted : state.reader = .ending ∨ state.reader = .done → Exhausted state.terminal
  unmarked : state.reader ≠ .done → none ∉ state.queue
  marked : state.reader = .done → Pumps state.output → state.output ≠ .joining →
    ∃ data : List Bytes, state.queue = data.map some ++ [none]
  joining : state.output = .joining → state.reader = .done ∧ state.queue = []
  complete : state.output = .leaving (.ok .remoteExit) ∨ state.output = .ended (.ok .remoteExit) →
    state.reader = .done ∧ Exhausted state.terminal ∧
      state.produced = (binaries state.sent).flatten ++ state.terminal.pending

/-- Where the input stands. -/
structure InputRelayed (state : Stream) : Prop where
  flows : state.terminal.closed = false → state.terminal.hungUp = false →
    ∀ left, toWrite state.input = some left →
      state.received.flatMap bytesOf = state.terminal.input ++ left
  ahead : state.terminal.input <+: state.received.flatMap bytesOf
  sized : Sized state.terminal

section Invariants

variable {state next : Stream}

theorem Exhausted.mono {terminal terminal' : SshTerminal} (exhausted : Exhausted terminal)
    (pending : terminal'.pending = terminal.pending)
    (closed : terminal.closed = true → terminal'.closed = true)
    (hungUp : terminal.hungUp = true → terminal'.hungUp = true) : Exhausted terminal' := by
  rcases exhausted with isClosed | ⟨isHungUp, empty⟩
  · exact .inl (closed isClosed)
  · exact .inr ⟨hungUp isHungUp, pending.trans empty⟩

/-- A queue without a mark holds data only. -/
theorem exists_map_some {queue : List (Option Bytes)} (unmarked : none ∉ queue) :
    ∃ data : List Bytes, queue = data.map some := by
  refine ⟨queue.filterMap id, ?_⟩
  induction queue with
  | nil => rfl
  | cons item queue ih =>
      rw [List.mem_cons, not_or] at unmarked
      obtain ⟨isData, rest⟩ := unmarked
      obtain ⟨data, rfl⟩ := Option.ne_none_iff_exists'.mp (Ne.symm isData)
      simpa using ih rest

theorem OutputRelayed.of_kept (relayed : OutputRelayed state) (kept : OutputKept state next) :
    OutputRelayed next := by
  have under : underWay next = underWay state := by
    simp only [underWay, kept.queue, kept.reader]
  have exhausted : Exhausted state.terminal → Exhausted next.terminal := fun exhausted =>
    exhausted.mono kept.pending kept.closed kept.hungUp
  constructor
  · rw [kept.output, kept.produced, kept.binaries, under, kept.pending]
    exact relayed.flows
  · rw [kept.binaries, kept.produced]
    exact relayed.ahead
  · rw [kept.binaries]
    exact relayed.fits
  · rw [kept.queue]
    exact relayed.queued
  · rw [kept.queue]
    exact relayed.bounded
  · rw [kept.reader]
    exact relayed.reading
  · rw [kept.reader]
    exact fun ends => exhausted (relayed.exhausted ends)
  · rw [kept.reader, kept.queue]
    exact relayed.unmarked
  · rw [kept.reader, kept.output, kept.queue]
    exact relayed.marked
  · rw [kept.output, kept.reader, kept.queue]
    exact relayed.joining
  · rw [kept.output, kept.reader, kept.produced, kept.binaries, kept.pending]
    intro ends
    obtain ⟨done, isExhausted, all⟩ := relayed.complete ends
    exact ⟨done, exhausted isExhausted, all⟩

/-- The reader takes what is there. -/
theorem OutputRelayed.read (relayed : OutputRelayed state) (reading : state.reader = .reading)
    {length : Nat} (positive : 0 < length) (small : length ≤ maxFrameBytes)
    (available : length ≤ state.terminal.pending.length) :
    OutputRelayed { state.touch with
      terminal := { state.terminal with pending := state.terminal.pending.drop length }
      reader := .putting (state.terminal.pending.take length) } := by
  have fits : Fits (state.terminal.pending.take length) :=
    ⟨List.ne_nil_of_length_pos (by rw [List.length_take]; omega), by
      rw [List.length_take]; omega⟩
  exact
    { relayed with
      flows := fun pumps => by
        have flows := relayed.flows pumps
        simp only [underWay, reading, held, List.append_nil] at flows
        simp only [underWay, held, Stream.touch, List.append_assoc, List.take_append_drop, flows]
      reading := fun data putting => Reader.putting.inj putting ▸ fits
      exhausted := by simp
      unmarked := fun _ => relayed.unmarked (by simp [reading])
      marked := by simp
      joining := fun joining => by
        have done := (relayed.joining joining).1
        simp [reading] at done
      complete := fun ends => by
        have done := (relayed.complete ends).1
        simp [reading] at done }

theorem OutputRelayed.put (relayed : OutputRelayed state) {data : Bytes}
    (putting : state.reader = .putting data) (room : state.queue.length < queueSize) :
    OutputRelayed { state with queue := state.queue ++ [some data], reader := .reading } :=
  { relayed with
    flows := fun pumps => by
      simpa [underWay, putting, held] using relayed.flows pumps
    queued := fun data member => by
      rcases List.mem_append.mp member with old | last
      · exact relayed.queued data old
      · obtain rfl : data = _ := by simpa using last
        exact relayed.reading _ putting
    bounded := by
      rw [List.length_append, List.length_singleton]
      exact room
    reading := by simp
    exhausted := by simp
    unmarked := fun _ => by simpa using relayed.unmarked (by simp [putting])
    marked := by simp
    joining := fun joining => by
      have done := (relayed.joining joining).1
      simp [putting] at done
    complete := fun ends => by
      have done := (relayed.complete ends).1
      simp [putting] at done }

/-- The mark comes last. -/
theorem OutputRelayed.putEnd (relayed : OutputRelayed state) (ending : state.reader = .ending)
    (room : state.queue.length < queueSize) :
    OutputRelayed { state with queue := state.queue ++ [none], reader := .done } :=
  { relayed with
    flows := fun pumps => by simpa [underWay, ending, held] using relayed.flows pumps
    queued := fun data member => relayed.queued data (by simpa using member)
    bounded := by
      rw [List.length_append, List.length_singleton]
      exact room
    reading := by simp
    exhausted := fun _ => relayed.exhausted (.inl ending)
    unmarked := by simp
    marked := fun _ _ _ => by
      obtain ⟨data, same⟩ := exists_map_some (relayed.unmarked (by simp [ending]))
      exact ⟨data, by rw [same]⟩
    joining := fun joining => by
      have done := (relayed.joining joining).1
      simp [ending] at done
    complete := fun ends => by
      have done := (relayed.complete ends).1
      simp [ending] at done }

/-- What is taken goes to the socket. -/
theorem OutputRelayed.take (relayed : OutputRelayed state) (getting : state.output = .getting)
    {data : Bytes} {rest : List (Option Bytes)} (first : state.queue = some data :: rest)
    (deadline : Nat) :
    OutputRelayed { state.send (.binary data) with
      queue := rest, output := .sending deadline } := by
  have flows : state.produced = (binaries state.sent ++ [data]).flatten ++
      (underWay { state with queue := rest } ++ state.terminal.pending) := by
    have flows := relayed.flows (by simp [getting, Pumps])
    simpa [underWay, first] using flows
  have sent : binaries (state.send (.binary data)).sent = binaries state.sent ++ [data] := by
    simp [Stream.send, binaries]
  have within : ∀ item ∈ rest, item ∈ state.queue := fun item member =>
    first ▸ List.mem_cons_of_mem _ member
  exact
    { relayed with
      flows := fun _ => by
        rw [sent]
        exact flows
      ahead := by
        rw [sent]
        exact flows ▸ List.prefix_append _ _
      fits := by
        rw [sent]
        intro other member
        rcases List.mem_append.mp member with old | last
        · exact relayed.fits other old
        · exact List.mem_singleton.mp last ▸
            relayed.queued data (first ▸ List.mem_cons_self)
      queued := fun other member => relayed.queued other (within _ member)
      bounded := by
        have bounded := relayed.bounded
        rw [first, List.length_cons] at bounded
        exact Nat.le_of_succ_le bounded
      unmarked := fun more member => relayed.unmarked more (within _ member)
      marked := fun done _ _ => by
        obtain ⟨all, queue⟩ := relayed.marked done (by simp [getting, Pumps]) (by simp [getting])
        rw [first] at queue
        cases all with
        | nil => simp at queue
        | cons head tail => exact ⟨tail, by simpa using (List.cons.inj queue).2⟩
      joining := by simp
      complete := by simp }

/-- After the mark nothing comes. -/
theorem OutputRelayed.takeEnd (relayed : OutputRelayed state) (getting : state.output = .getting)
    {rest : List (Option Bytes)} (first : state.queue = none :: rest) :
    OutputRelayed { state with queue := rest, output := .joining } := by
  have done : state.reader = .done := by
    by_contra more
    exact relayed.unmarked more (first ▸ List.mem_cons_self)
  have empty : rest = [] := by
    obtain ⟨all, queue⟩ := relayed.marked done (by simp [getting, Pumps]) (by simp [getting])
    rw [first] at queue
    cases all with
    | nil => simpa using queue
    | cons head tail => simp at queue
  subst empty
  exact
    { relayed with
      flows := fun _ => by
        have flows := relayed.flows (by simp [getting, Pumps])
        simpa [underWay, first] using flows
      queued := by simp
      bounded := by simp
      unmarked := by simp
      marked := fun _ _ other => absurd rfl other
      joining := fun _ => ⟨done, rfl⟩
      complete := by simp }

/-- A pump that gives up leaves a beginning. -/
theorem OutputRelayed.gaveUp (relayed : OutputRelayed state) {result : Result}
    (kept : OutputKept state { next with queue := state.queue, output := state.output })
    (queue : next.queue <:+ state.queue) (isResult : result ≠ .ok .remoteExit)
    (leaving : next.output = .leaving result) : OutputRelayed next := by
  have given : ¬ Pumps next.output := by simp [leaving, Pumps]
  have exhausted : Exhausted state.terminal → Exhausted next.terminal := fun exhausted =>
    exhausted.mono kept.pending kept.closed kept.hungUp
  constructor
  · exact fun pumps => absurd pumps given
  · rw [kept.binaries, kept.produced]
    exact relayed.ahead
  · rw [kept.binaries]
    exact relayed.fits
  · exact fun data member => relayed.queued data (queue.subset member)
  · exact queue.length_le.trans relayed.bounded
  · rw [kept.reader]
    exact relayed.reading
  · rw [kept.reader]
    exact fun ends => exhausted (relayed.exhausted ends)
  · rw [kept.reader]
    exact fun more member => relayed.unmarked more (queue.subset member)
  · exact fun _ pumps => absurd pumps given
  · simp [leaving]
  · simp [leaving, isResult]

theorem OutputRelayed.moves (relayed : OutputRelayed state) (moves : OutputMoves state next) :
    OutputRelayed next := by
  cases moves with
  | kept kept => exact relayed.of_kept kept
  | emit alive data =>
      have exhausted : Exhausted state.terminal → state.terminal.closed = true := by
        rintro (closed | ⟨hungUp, -⟩)
        · exact closed
        · simp [alive] at hungUp
      exact
        { relayed with
          flows := fun pumps => by
            have flows := relayed.flows pumps
            simp only [underWay, flows, List.append_assoc]
          ahead := relayed.ahead.trans (List.prefix_append _ _)
          exhausted := fun ends => .inl (exhausted (relayed.exhausted ends))
          complete := fun ends => by
            obtain ⟨done, isExhausted, all⟩ := relayed.complete ends
            refine ⟨done, .inl (exhausted isExhausted), ?_⟩
            simp only [all, List.append_assoc] }
  | read reading positive small available => exact relayed.read reading positive small available
  | readEnd reading exhausted =>
      exact
        { relayed with
          flows := fun pumps => by simpa [underWay, reading, held] using relayed.flows pumps
          reading := by simp
          exhausted := fun _ => exhausted
          unmarked := fun _ => relayed.unmarked (by simp [reading])
          marked := by simp
          joining := fun joining => by
            have done := (relayed.joining joining).1
            simp [reading] at done
          complete := fun ends => by
            have done := (relayed.complete ends).1
            simp [reading] at done }
  | readFailed reading =>
      exact
        { relayed with
          flows := fun pumps => by simpa [underWay, reading, held] using relayed.flows pumps
          reading := by simp
          exhausted := by simp
          unmarked := fun _ => relayed.unmarked (by simp [reading])
          marked := by simp
          joining := fun joining => by
            have done := (relayed.joining joining).1
            simp [reading] at done
          complete := fun ends => by
            have done := (relayed.complete ends).1
            simp [reading] at done }
  | put putting room => exact relayed.put putting room
  | putEnd ending room => exact relayed.putEnd ending room
  | take getting first deadline => exact relayed.take getting first deadline
  | takeEnd getting first => exact relayed.takeEnd getting first
  | delivered sending =>
      exact
        { relayed with
          flows := fun _ => relayed.flows (by simp [sending, Pumps])
          marked := fun done _ _ => relayed.marked done (by simp [sending, Pumps]) (by simp [sending])
          joining := by simp
          complete := by simp }
  | joined joining done =>
      have flows := relayed.flows (by simp [joining, Pumps])
      have empty := (relayed.joining joining).2
      exact
        { relayed with
          flows := fun pumps => pumps.elim
          marked := fun _ pumps => pumps.elim
          joining := by simp
          complete := fun _ => by
            refine ⟨done, relayed.exhausted (.inr done), ?_⟩
            simpa [underWay, empty, done, held] using flows }
  | left leaving =>
      exact
        { relayed with
          flows := fun pumps => pumps.elim
          marked := fun _ pumps => pumps.elim
          joining := by simp
          complete := fun ends => relayed.complete (by simpa [leaving] using ends) }
  | gaveUp kept queue isResult leaving => exact relayed.gaveUp kept queue isResult leaving

theorem InputRelayed.moves (relayed : InputRelayed state) (moves : InputMoves state next) :
    InputRelayed next := by
  have opened : ∀ {flag flag' : Bool}, (flag = true → flag' = true) → flag' = false →
      flag = false := fun mono off => Bool.eq_false_iff.mpr fun on => by simp [mono on] at off
  cases moves with
  | kept kept =>
      constructor
      · rw [kept.input, kept.received, kept.written]
        exact fun closed hungUp => relayed.flows (opened kept.closed closed)
          (opened kept.hungUp hungUp)
      · rw [kept.written, kept.received]
        exact relayed.ahead
      · rw [Sized, kept.columns, kept.rows]
        exact relayed.sized
  | @received _ message receiving accepts =>
      have grown : next.received.flatMap bytesOf =
          state.received.flatMap bytesOf ++ bytesOf message := by
        simp [accepts.received]
      constructor
      · rw [accepts.closed, accepts.hungUp, accepts.written, grown]
        intro closed hungUp left isLeft
        have flows := relayed.flows closed hungUp [] (by rw [receiving]; rfl)
        rw [accepts.toWrite left isLeft, flows, List.append_nil]
      · rw [accepts.written, grown]
        exact relayed.ahead.trans (List.prefix_append _ _)
      · exact accepts.sized relayed.sized
  | @write rest writing length isOpen alive available =>
      have flows := relayed.flows isOpen alive rest (by rw [writing]; rfl)
      refine { relayed with flows := ?_, ahead := ?_ }
      · intro _ _ left isLeft
        by_cases all : rest.length = length
        · rw [if_pos all] at isLeft
          obtain rfl := Option.some.inj isLeft
          simp [flows, ← all]
        · rw [if_neg all] at isLeft
          obtain rfl := Option.some.inj isLeft
          simp [flows]
      · rw [flows]
        exact List.prefix_append_right_inj _ |>.mpr (List.take_prefix _ _)
  | writeStopped stopped =>
      refine { relayed with flows := fun closed hungUp => ?_ }
      rcases stopped with isClosed | isHungUp
      · exact nomatch isClosed.symm.trans closed
      · exact nomatch isHungUp.symm.trans hungUp
  | gaveUp kept ended =>
      constructor
      · rw [ended]
        exact fun _ _ left isLeft => nomatch isLeft
      · rw [kept.written, kept.received]
        exact relayed.ahead
      · rw [Sized, kept.columns, kept.rows]
        exact relayed.sized

end Invariants

variable {tooDeep : Text → Bool} {limits : Limits}

theorem outputRelayed_inductive : (streams tooDeep limits).Inductive OutputRelayed where
  initial := by
    rintro _ ⟨clock, rfl⟩
    exact
      { flows := fun _ => rfl
        ahead := List.prefix_rfl
        fits := by simp [binaries]
        queued := by simp
        bounded := Nat.zero_le _
        reading := by simp
        exhausted := by simp
        unmarked := by simp
        marked := by simp
        joining := by simp
        complete := by simp }
  preserved _ _ _ relayed step := relayed.moves (outputMoves_of_step step)

theorem inputRelayed_inductive : (streams tooDeep limits).Inductive InputRelayed where
  initial := by
    rintro _ ⟨clock, rfl⟩
    refine ⟨fun _ _ left isLeft => Option.some.inj isLeft, List.prefix_rfl, ?_⟩
    show (minColumns ≤ 120 ∧ 120 ≤ maxColumns) ∧ minRows ≤ 30 ∧ 30 ≤ maxRows
    decide
  preserved _ _ _ relayed step := relayed.moves (inputMoves_of_step step)

theorem length_queued {queue : List (Option Bytes)}
    (queued : ∀ data, some data ∈ queue → Fits data) :
    (queue.filterMap id).flatten.length ≤ queue.length * maxFrameBytes := by
  induction queue with
  | nil => simp
  | cons item queue ih =>
      have rest := ih fun data member => queued data (List.mem_cons_of_mem _ member)
      rw [List.length_cons, Nat.succ_mul]
      cases item with
      | none => exact rest.trans (Nat.le_add_right _ _)
      | some data =>
          have small := (queued data List.mem_cons_self).2
          show (data :: queue.filterMap id).flatten.length ≤ _
          rw [List.flatten_cons, List.length_append]
          omega

/-- No more than the queue and one frame are under way. -/
theorem OutputRelayed.length_underWay {state : Stream} (relayed : OutputRelayed state) :
    (underWay state).length ≤ outputBufferBytes + maxFrameBytes := by
  have queued := (length_queued relayed.queued).trans
    (Nat.mul_le_mul_right maxFrameBytes relayed.bounded)
  have isHeld : (held state.reader).length ≤ maxFrameBytes := by
    cases reader : state.reader with
    | putting data => exact (relayed.reading data reader).2
    | _ => exact Nat.zero_le _
  have size : queueSize * maxFrameBytes = outputBufferBytes := by decide
  rw [underWay, List.length_append]
  omega

/-! ## The result -/

/-- **What a web shell relays.**  In every reachable state the frames that have been handed to the
socket hold the beginning of what the remote side has written, each of them something and not too
much, with a bounded amount under way; and all of it, if the pump has seen the end and nobody has
closed the terminal.  What has been written to the PTY is the beginning of what the client has
sent, and the size of the PTY is within its bounds. -/
theorem relays_bytes {state : Stream} (reachable : (streams tooDeep limits).Reachable state) :
    ((binaries state.sent).flatten <+: state.produced ∧
      (∀ data ∈ binaries state.sent, data ≠ [] ∧ data.length ≤ maxFrameBytes) ∧
        (underWay state).length ≤ outputBufferBytes + maxFrameBytes ∧
          (state.output = .ended (.ok .remoteExit) → state.terminal.closed = false →
            (binaries state.sent).flatten = state.produced)) ∧
      state.terminal.input <+: state.received.flatMap bytesOf ∧ Sized state.terminal := by
  have output := outputRelayed_inductive.of_reachable reachable
  have input := inputRelayed_inductive.of_reachable reachable
  refine ⟨⟨output.ahead, output.fits, output.length_underWay, ?_⟩, input.ahead, input.sized⟩
  intro ended isOpen
  obtain ⟨-, exhausted, all⟩ := output.complete (.inr ended)
  rcases exhausted with closed | ⟨-, empty⟩
  · exact nomatch closed.symm.trans isOpen
  · rw [all, empty, List.append_nil]

/-- A session up to its first frames. -/
def opened : List StreamAction := List.replicate 6 (.resume none)

/-- The remote side greets and hangs up, while the client types. -/
def greeted : List StreamAction :=
  opened ++ [.emit [104, 105], .read 2, .receive (.binary [108, 115]), .put, .write 1, .take,
    .write 1, .delivered none, .hangUp, .readEnd, .put, .take, .joined, .left]

theorem relays_bytes_greeted : ∃ state : Stream,
    (streams (fun _ => false) ⟨seconds 3600, seconds 600⟩).Reachable state ∧
      state.terminal.input = [108, 115] ∧ (binaries state.sent).flatten = state.produced := by
  have ran : ((streams (fun _ => false) ⟨seconds 3600, seconds 600⟩).exec { clock := 0 }
      greeted).any (fun state => decide (state.terminal.input = [108, 115] ∧
        state.output = .ended (.ok .remoteExit) ∧ state.terminal.closed = false)) = true := by
    decide +kernel
  obtain ⟨state, greeted, facts⟩ := (Option.any_eq_true _ _).mp ran
  obtain ⟨written, ended, isOpen⟩ := of_decide_eq_true facts
  have reached : (streams (fun _ => false) ⟨seconds 3600, seconds 600⟩).Reachable state :=
    ⟨_, ⟨0, rfl⟩, System.leads_of_exec greeted⟩
  exact ⟨state, reached, written, (relays_bytes reached).1.2.2.2 ended isOpen⟩

end OpsComposer.Terminals
