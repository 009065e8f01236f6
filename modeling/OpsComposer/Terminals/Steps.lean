import OpsComposer.Services.WebShellManager

/-!
# Steps of a web shell

What a step of the event loop does to the output, from the remote side to the socket
(`OutputMoves`), and to the input, from the client to the PTY (`InputMoves`).  Everything that is
proved about what is relayed goes through these two, and all steps that relay nothing are one case
(`Kept`).
-/

set_option autoImplicit false

namespace OpsComposer.Terminals

open Domain Foundations Services
  Services.WebShellManager

/-! ## Bytes under way -/

/-- The data in the frames that have been handed to the socket. -/
def binaries (sent : List Frame) : List Bytes :=
  sent.filterMap fun
    | .binary data => some data
    | _ => none

@[simp] theorem binaries_append {sent later : List Frame} :
    binaries (sent ++ later) = binaries sent ++ binaries later := List.filterMap_append

/-- What the reader has read and not yet put into the queue. -/
def held : Reader → Bytes
  | .putting data => data
  | _ => []

/-- What is between the terminal and the socket. -/
def underWay (state : Stream) : Bytes :=
  (state.queue.filterMap id).flatten ++ held state.reader

/-- The pump still takes from the queue. -/
def Pumps : Output → Prop
  | .getting | .sending _ | .joining => True
  | _ => False

/-- A frame of output: something, and not too much. -/
def Fits (data : Bytes) : Prop := data ≠ [] ∧ data.length ≤ maxFrameBytes

/-- The data in a message of the client. -/
def bytesOf : Message → Bytes
  | .binary data => data
  | _ => []

/-- What the pump has received and is going to write, unless it has given up. -/
def toWrite : Input → Option Bytes
  | .receiving => some []
  | .writing rest => some rest
  | _ => none

/-- The size of the PTY is within its bounds. -/
def Sized (terminal : SshTerminal) : Prop :=
  (minColumns ≤ terminal.columns ∧ terminal.columns ≤ maxColumns) ∧
    minRows ≤ terminal.rows ∧ terminal.rows ≤ maxRows

/-- There is nothing more to read. -/
def Exhausted (terminal : SshTerminal) : Prop :=
  terminal.closed = true ∨ (terminal.hungUp = true ∧ terminal.pending = [])

/-! ## Steps that relay nothing -/

/-- The output stays where it is. -/
structure OutputKept (state next : Stream) : Prop where
  produced : next.produced = state.produced
  pending : next.terminal.pending = state.terminal.pending
  reader : next.reader = state.reader
  queue : next.queue = state.queue
  output : next.output = state.output
  binaries : binaries next.sent = binaries state.sent
  closed : state.terminal.closed = true → next.terminal.closed = true
  hungUp : state.terminal.hungUp = true → next.terminal.hungUp = true

/-- The input stays where it is. -/
structure InputKept (state next : Stream) : Prop where
  received : next.received = state.received
  input : next.input = state.input
  written : next.terminal.input = state.terminal.input
  columns : next.terminal.columns = state.terminal.columns
  rows : next.terminal.rows = state.terminal.rows
  closed : state.terminal.closed = true → next.terminal.closed = true
  hungUp : state.terminal.hungUp = true → next.terminal.hungUp = true

/-- Output and input stay where they are. -/
structure Kept (state next : Stream) : Prop where
  output : OutputKept state next
  input : InputKept state next

namespace Kept

theorem refl (state : Stream) : Kept state state :=
  ⟨⟨rfl, rfl, rfl, rfl, rfl, rfl, id, id⟩, rfl, rfl, rfl, rfl, rfl, id, id⟩

theorem trans {first second third : Stream} (before : Kept first second)
    (after : Kept second third) : Kept first third where
  output :=
    { produced := after.output.produced.trans before.output.produced
      pending := after.output.pending.trans before.output.pending
      reader := after.output.reader.trans before.output.reader
      queue := after.output.queue.trans before.output.queue
      output := after.output.output.trans before.output.output
      binaries := after.output.binaries.trans before.output.binaries
      closed := fun closed => after.output.closed (before.output.closed closed)
      hungUp := fun hungUp => after.output.hungUp (before.output.hungUp hungUp) }
  input :=
    { received := after.input.received.trans before.input.received
      input := after.input.input.trans before.input.input
      written := after.input.written.trans before.input.written
      columns := after.input.columns.trans before.input.columns
      rows := after.input.rows.trans before.input.rows
      closed := fun closed => after.input.closed (before.input.closed closed)
      hungUp := fun hungUp => after.input.hungUp (before.input.hungUp hungUp) }

theorem of_same {state next : Stream} (terminal : next.terminal = state.terminal := by rfl)
    (produced : next.produced = state.produced := by rfl)
    (reader : next.reader = state.reader := by rfl) (queue : next.queue = state.queue := by rfl)
    (output : next.output = state.output := by rfl) (sent : next.sent = state.sent := by rfl)
    (received : next.received = state.received := by rfl)
    (input : next.input = state.input := by rfl) : Kept state next := by
  refine ⟨⟨produced, ?_, reader, queue, output, ?_, ?_, ?_⟩, received, input, ?_, ?_, ?_, ?_, ?_⟩
  · rw [terminal]
  · rw [sent]
  all_goals rw [terminal] <;> exact id

variable {state : Stream}

theorem sendError (code message : String) : Kept state (state.sendError code message) := by
  unfold Stream.sendError
  split
  · exact ⟨⟨rfl, rfl, rfl, rfl, rfl, by simp [Stream.send, binaries], id, id⟩,
      rfl, rfl, rfl, rfl, rfl, id, id⟩
  · exact .refl state

theorem rejectOrSendError (code message : String) :
    Kept state (state.rejectOrSendError code message) := by
  unfold Stream.rejectOrSendError
  split
  · exact of_same
  · exact .sendError code message

theorem lose (raised : Fault) : Kept state (state.lose raised) := by
  unfold Stream.lose
  split
  · exact of_same
  · exact .refl state

theorem fail (raised : Fault) : Kept state (state.fail raised) := by
  cases raised with
  | opsError code publicMessage =>
      exact (rejectOrSendError code publicMessage).trans (of_same)
  | startError => exact (sendError _ _).trans (of_same)
  | disconnected => exact of_same
  | runtimeError | other => exact (rejectOrSendError _ _).trans (of_same)

theorem sendClosed (reason : WebShellCloseReason) (exitCode : Option Int) :
    Kept state (state.sendClosed reason exitCode) := by
  unfold Stream.sendClosed
  split
  · exact ⟨⟨rfl, rfl, rfl, rfl, rfl, by simp [Stream.send, binaries], id, id⟩,
      rfl, rfl, rfl, rfl, rfl, id, id⟩
  · exact of_same

variable {next : Stream}

theorem resume {raised : Option Fault} (step : state.resume raised = some next) :
    Kept state next := by
  cases phase : state.phase with
  | claiming | starting =>
      simp only [Stream.resume, phase] at step
      cases raised with
      | none => exact Option.some.inj step ▸ of_same
      | some raised => exact Option.some.inj step ▸ fail raised
  | accepting | confirming | readying =>
      simp only [Stream.resume, phase] at step
      cases raised with
      | none => exact Option.some.inj step ▸ of_same
      | some raised => exact Option.some.inj step ▸ (lose raised).trans (fail raised)
  | registering =>
      simp only [Stream.resume, phase] at step
      exact Option.some.inj step ▸
        ⟨⟨rfl, rfl, rfl, rfl, rfl, by simp [Stream.send, binaries], id, id⟩,
      rfl, rfl, rfl, rfl, rfl, id, id⟩
  | serving =>
      simp only [Stream.resume, phase] at step
      obtain ⟨outcome, -, rfl⟩ := Option.map_eq_some_iff.mp step
      cases outcome with
      | error raised => exact fail raised
      | ok answer => exact of_same
  | gathering reason exitCode | hangingUp =>
      simp only [Stream.resume, phase] at step
      exact Option.some.inj step ▸ of_same
  | handling reason =>
      simp only [Stream.resume, phase] at step
      cases raised with
      | none => exact Option.some.inj step ▸ of_same
      | some raised =>
          exact Option.some.inj step ▸
            (lose raised).trans (of_same)
  | closing reason exitCode =>
      simp only [Stream.resume, phase] at step
      exact Option.some.inj step ▸ ⟨⟨rfl, rfl, rfl, rfl, rfl, rfl, fun _ => rfl, id⟩,
        rfl, rfl, rfl, rfl, rfl, fun _ => rfl, id⟩
  | awaiting reason exitCode | notifying =>
      simp only [Stream.resume, phase] at step
      cases raised <;> exact Option.some.inj step ▸ of_same
  | unregistering reason exitCode =>
      simp only [Stream.resume, phase, Option.some.injEq] at step
      split at step
      · exact step ▸ of_same
      · have unregistered : Kept state { state with registered := false } :=
          of_same
        exact step ▸ unregistered.trans (sendClosed reason exitCode)
  | finishing reason exitCode =>
      simp only [Stream.resume, phase] at step
      exact Option.some.inj step ▸ sendClosed reason exitCode
  | finished =>
      simp only [Stream.resume, phase] at step
      cases step

theorem wake {limits : Limits} (step : state.wake limits = some next) : Kept state next := by
  simp only [Stream.wake] at step
  split at step
  · split at step
    · repeat' split at step
      all_goals exact Option.some.inj step ▸ of_same
    · cases step
  · cases step

theorem beaten {answer : Option (Option WebShellService.CloseReason)}
    (step : state.beaten answer = some next) : Kept state next := by
  simp only [Stream.beaten] at step
  split at step
  · split at step
    · split at step
      all_goals exact Option.some.inj step ▸ of_same
    · cases step
  · cases step

theorem reap (step : state.reap = some next) : Kept state next := by
  simp only [Stream.reap] at step
  split at step
  · obtain ⟨code, -, rfl⟩ := Option.map_eq_some_iff.mp step
    exact of_same
  · cases step

end Kept

/-- The actions of the pumps and of the reader, and what the remote side writes. -/
def relays : StreamAction → Bool
  | .emit _ | .read _ | .readEnd | .readFailed | .put | .take | .delivered _ | .sendTimeout
  | .joined | .left | .receive _ | .receiveFailed _ | .write _ | .writeStopped | .writeFailed
  | .refused _ => true
  | _ => false

/-- All other actions leave what is relayed. -/
theorem kept_of_step {tooDeep : Text → Bool} {limits : Limits} {state next : Stream}
    {action : StreamAction} (other : relays action = false)
    (step : state.step tooDeep limits action = some next) : Kept state next := by
  cases action with
  | tick elapsed | shutdown => exact Option.some.inj step ▸ .of_same
  | hangUp =>
      exact Option.some.inj step ▸ ⟨⟨rfl, rfl, rfl, rfl, rfl, rfl, id, fun _ => rfl⟩,
        rfl, rfl, rfl, rfl, rfl, id, fun _ => rfl⟩
  | exit code =>
      simp only [Stream.step] at step
      split at step
      · exact Option.some.inj step ▸ ⟨⟨rfl, rfl, rfl, rfl, rfl, rfl, id, id⟩,
          rfl, rfl, rfl, rfl, rfl, id, id⟩
      · cases step
  | request reason =>
      simp only [Stream.step] at step
      split at step
      · exact Option.some.inj step ▸ .of_same
      · cases step
  | closeTerminal =>
      simp only [Stream.step] at step
      split at step
      · exact Option.some.inj step ▸ ⟨⟨rfl, rfl, rfl, rfl, rfl, rfl, fun _ => rfl, id⟩,
          rfl, rfl, rfl, rfl, rfl, fun _ => rfl, id⟩
      · cases step
  | wake => exact .wake step
  | beaten answer => exact .beaten step
  | reap => exact .reap step
  | resume raised => exact .resume step
  | _ => cases other

/-! ## What a step does to the output and to the input -/

/-- What one step does to the output: all stays, or some of it goes one way on from the PTY
through the queue to the client. -/
inductive OutputMoves (state : Stream) : Stream → Prop where
  | kept {next : Stream} (kept : OutputKept state next) : OutputMoves state next
  | emit (alive : state.terminal.hungUp = false) (data : Bytes) :
      OutputMoves state { state with
        terminal := { state.terminal with pending := state.terminal.pending ++ data }
        produced := state.produced ++ data }
  | read (reading : state.reader = .reading) {length : Nat} (positive : 0 < length)
      (small : length ≤ maxFrameBytes) (available : length ≤ state.terminal.pending.length) :
      OutputMoves state { state.touch with
        terminal := { state.terminal with pending := state.terminal.pending.drop length }
        reader := .putting (state.terminal.pending.take length) }
  | readEnd (reading : state.reader = .reading) (exhausted : Exhausted state.terminal) :
      OutputMoves state { state with reader := .ending }
  | readFailed (reading : state.reader = .reading) :
      OutputMoves state { state with reader := .failed }
  | put {data : Bytes} (putting : state.reader = .putting data)
      (room : state.queue.length < queueSize) :
      OutputMoves state { state with queue := state.queue ++ [some data], reader := .reading }
  | putEnd (ending : state.reader = .ending) (room : state.queue.length < queueSize) :
      OutputMoves state { state with queue := state.queue ++ [none], reader := .done }
  | take (getting : state.output = .getting) {data : Bytes} {rest : List (Option Bytes)}
      (first : state.queue = some data :: rest) (deadline : Nat) :
      OutputMoves state { state.send (.binary data) with
        queue := rest, output := .sending deadline }
  | takeEnd (getting : state.output = .getting) {rest : List (Option Bytes)}
      (first : state.queue = none :: rest) :
      OutputMoves state { state with queue := rest, output := .joining }
  | delivered {deadline : Nat} (sending : state.output = .sending deadline) :
      OutputMoves state { state with output := .getting }
  | joined (joining : state.output = .joining) (done : state.reader = .done) :
      OutputMoves state { state with output := .leaving (.ok .remoteExit) }
  | left {result : Result} (leaving : state.output = .leaving result) :
      OutputMoves state { state with output := .ended result }
  /-- The pump gives up, and with it what is under way. -/
  | gaveUp {next : Stream} {result : Result} (kept : OutputKept state { next with
        queue := state.queue, output := state.output })
      (queue : next.queue <:+ state.queue) (isResult : result ≠ .ok .remoteExit)
      (leaving : next.output = .leaving result) : OutputMoves state next

section Steps

variable {tooDeep : Text → Bool} {limits : Limits} {state next : Stream}

/-- What the pump of the input does with a message. -/
structure Accepts (state next : Stream) (message : Message) : Prop where
  output : OutputKept state next
  received : next.received = state.received
  written : next.terminal.input = state.terminal.input
  closed : next.terminal.closed = state.terminal.closed
  hungUp : next.terminal.hungUp = state.terminal.hungUp
  sized : Sized state.terminal → Sized next.terminal
  kept : state.terminal.closed = true → next.terminal = state.terminal
  toWrite : ∀ left, toWrite next.input = some left → left = bytesOf message

theorem sizeWithin_spec {low high size : Nat} {value : Option Foundations.Json}
    (found : sizeWithin low high value = some size) : low ≤ size ∧ size ≤ high := by
  unfold sizeWithin at found
  split at found
  · split at found
    · obtain rfl := Option.some.inj found
      omega
    · cases found
  · cases found

theorem control_resize {value : Text} {columns rows : Nat}
    (resizes : WebShellManager.control tooDeep value = .resize columns rows) :
    (minColumns ≤ columns ∧ columns ≤ maxColumns) ∧ minRows ≤ rows ∧ rows ≤ maxRows := by
  unfold WebShellManager.control at resizes
  split at resizes
  · cases resizes
  · split at resizes
    · cases resizes
    · cases resizes
    · split at resizes
      · split at resizes
        · cases resizes
        · split at resizes
          · split at resizes
            · rename_i isColumns isRows
              obtain ⟨rfl, rfl⟩ := Control.resize.inj resizes
              exact ⟨sizeWithin_spec isColumns, sizeWithin_spec isRows⟩
            · cases resizes
          · cases resizes
      · cases resizes
    · cases resizes

theorem accepts_refuse (code errorMessage : String) (message : Message) :
    Accepts state (state.refuse code errorMessage) message := by
  unfold Stream.refuse Stream.sendError
  split
  · exact ⟨⟨rfl, rfl, rfl, rfl, rfl, by simp [Stream.send, binaries], id, id⟩, rfl, rfl, rfl, rfl,
      id, fun _ => rfl, nofun⟩
  · exact ⟨⟨rfl, rfl, rfl, rfl, rfl, rfl, id, id⟩, rfl, rfl, rfl, rfl, id,
      fun _ => rfl, nofun⟩

theorem accepts_accept (receiving : state.input = .receiving) (message : Message) :
    Accepts state (state.accept tooDeep message) message := by
  have ended : ∀ result, Accepts state { state with input := .ended result } message :=
    fun result => ⟨⟨rfl, rfl, rfl, rfl, rfl, rfl, id, id⟩, rfl, rfl, rfl, rfl, id,
      fun _ => rfl, nofun⟩
  cases message with
  | disconnect | other => exact ended _
  | binary data =>
      simp only [Stream.accept]
      split
      · exact accepts_refuse _ _ _
      · split
        · rename_i empty
          refine ⟨⟨rfl, rfl, rfl, rfl, rfl, rfl, id, id⟩, rfl, rfl, rfl, rfl, id, fun _ => rfl, ?_⟩
          intro left isLeft
          rw [receiving] at isLeft
          exact (Option.some.inj isLeft).symm.trans empty.symm
        · refine ⟨⟨rfl, rfl, rfl, rfl, rfl, rfl, id, id⟩, rfl, rfl, rfl, rfl, id, fun _ => rfl, ?_⟩
          exact fun left isLeft => (Option.some.inj isLeft).symm
  | text value =>
      have waits : ∀ left, toWrite state.input = some left → left = [] := by
        rw [receiving]
        exact fun left isLeft => (Option.some.inj isLeft).symm
      simp only [Stream.accept]
      split
      · exact ended _
      · split
        · exact ended _
        · split
          · exact ended _
          · exact accepts_refuse _ _ _
          · exact ended _
          · rename_i resizes
            split
            · exact ⟨⟨rfl, rfl, rfl, rfl, rfl, rfl, id, id⟩, rfl, rfl, rfl, rfl, id,
                fun _ => rfl, waits⟩
            · rename_i isOpen
              exact ⟨⟨rfl, rfl, rfl, rfl, rfl, rfl, id, id⟩, rfl, rfl, rfl, rfl,
                fun _ => control_resize resizes, fun closed => absurd closed isOpen, waits⟩

theorem accepts_of_receive {message : Message} (step : state.receive tooDeep message = some next) :
    state.input = .receiving ∧
      Accepts { state with received := state.received ++ [message] } next message := by
  simp only [Stream.receive] at step
  split at step
  · rename_i able
    have receiving :
        ({ state with received := state.received ++ [message] } : Stream).input = .receiving :=
      able.2
    exact ⟨able.2, Option.some.inj step ▸ accepts_accept receiving message⟩
  · cases step

/-- What one step does to the input, on its way from the client to the PTY. -/
inductive InputMoves (state : Stream) : Stream → Prop where
  | kept {next : Stream} (kept : InputKept state next) : InputMoves state next
  | received {next : Stream} {message : Message} (receiving : state.input = .receiving)
      (accepts : Accepts { state with received := state.received ++ [message] } next message) :
      InputMoves state next
  | write {rest : Bytes} (writing : state.input = .writing rest) {length : Nat}
      (opened : state.terminal.closed = false) (alive : state.terminal.hungUp = false)
      (available : length ≤ rest.length) :
      InputMoves state { state with
        terminal := { state.terminal with input := state.terminal.input ++ rest.take length }
        input := if rest.length = length then .receiving else .writing (rest.drop length) }
  | writeStopped (stopped : state.terminal.closed = true ∨ state.terminal.hungUp = true) :
      InputMoves state { state with input := .receiving }
  /-- The pump gives up. -/
  | gaveUp {next : Stream} {result : Result} (kept : InputKept state { next with
        input := state.input }) (ended : next.input = .ended result) : InputMoves state next

/-- A step is opened once, for both directions. -/
theorem moves_of_step {action : StreamAction}
    (step : state.step tooDeep limits action = some next) :
    OutputMoves state next ∧ InputMoves state next := by
  cases action with
  | emit data =>
      simp only [Stream.step] at step
      split at step
      · rename_i able
        exact Option.some.inj step ▸ ⟨.emit able.2 data, .kept ⟨rfl, rfl, rfl, rfl, rfl, id, id⟩⟩
      · cases step
  | read length =>
      simp only [Stream.step, Stream.read] at step
      split at step
      · rename_i able
        obtain ⟨-, -, reading, -, positive, small, available⟩ := able
        exact Option.some.inj step ▸
          ⟨.read reading positive small available, .kept ⟨rfl, rfl, rfl, rfl, rfl, id, id⟩⟩
      · cases step
  | readEnd =>
      simp only [Stream.step, Stream.readEnd] at step
      split at step
      · rename_i able
        exact Option.some.inj step ▸
          ⟨.readEnd able.2.2.1 able.2.2.2, .kept ⟨rfl, rfl, rfl, rfl, rfl, id, id⟩⟩
      · cases step
  | readFailed =>
      simp only [Stream.step, Stream.readFailed] at step
      split at step
      · rename_i able
        exact Option.some.inj step ▸ ⟨.readFailed able.2.2, .kept ⟨rfl, rfl, rfl, rfl, rfl, id, id⟩⟩
      · cases step
  | put =>
      simp only [Stream.step, Stream.put] at step
      split at step
      · rename_i able
        split at step
        · rename_i putting
          exact Option.some.inj step ▸
            ⟨.put putting able.2.2, .kept ⟨rfl, rfl, rfl, rfl, rfl, id, id⟩⟩
        · rename_i ending
          exact Option.some.inj step ▸
            ⟨.putEnd ending able.2.2, .kept ⟨rfl, rfl, rfl, rfl, rfl, id, id⟩⟩
        · cases step
      · cases step
  | take =>
      simp only [Stream.step, Stream.take] at step
      split at step
      · rename_i able
        split at step
        · cases step
        · rename_i first
          exact Option.some.inj step ▸
            ⟨.takeEnd able.2 first, .kept ⟨rfl, rfl, rfl, rfl, rfl, id, id⟩⟩
        · rename_i first
          split at step
          · exact Option.some.inj step ▸
              ⟨.take able.2 first _, .kept ⟨rfl, rfl, rfl, rfl, rfl, id, id⟩⟩
          · refine Option.some.inj step ▸
              ⟨.gaveUp ⟨rfl, rfl, rfl, rfl, rfl, rfl, id, id⟩ ?_ ?_ rfl,
                .kept ⟨rfl, rfl, rfl, rfl, rfl, id, id⟩⟩
            · rw [first]
              exact List.suffix_cons _ _
            · simp
      · cases step
  | delivered raised =>
      simp only [Stream.step, Stream.delivered] at step
      split at step
      · rename_i sending
        split at step
        · split at step
          · exact Option.some.inj step ▸
              ⟨.delivered sending, .kept ⟨rfl, rfl, rfl, rfl, rfl, id, id⟩⟩
          · rename_i raised
            obtain ⟨kept, input⟩ : Kept state (state.lose raised) := .lose raised
            refine Option.some.inj step ▸ ⟨.gaveUp
              ⟨kept.produced, kept.pending, kept.reader, rfl, rfl, kept.binaries, kept.closed,
                kept.hungUp⟩ ?_ (by simp) rfl, .kept ⟨input.received, input.input, input.written,
                input.columns, input.rows, input.closed, input.hungUp⟩⟩
            show (state.lose raised).queue <:+ state.queue
            rw [kept.queue]
        · cases step
      · cases step
  | sendTimeout =>
      simp only [Stream.step, Stream.sendTimeout] at step
      split at step
      · split at step
        · exact Option.some.inj step ▸
            ⟨.gaveUp ⟨rfl, rfl, rfl, rfl, rfl, rfl, id, id⟩ List.suffix_rfl (by simp) rfl,
              .kept ⟨rfl, rfl, rfl, rfl, rfl, id, id⟩⟩
        · cases step
      · cases step
  | joined =>
      simp only [Stream.step, Stream.joined] at step
      split at step
      · rename_i able
        exact Option.some.inj step ▸
          ⟨.joined able.2.1 able.2.2, .kept ⟨rfl, rfl, rfl, rfl, rfl, id, id⟩⟩
      · cases step
  | left =>
      simp only [Stream.step, Stream.left] at step
      split at step
      · rename_i leaving
        split at step
        · exact Option.some.inj step ▸ ⟨.left leaving, .kept ⟨rfl, rfl, rfl, rfl, rfl, id, id⟩⟩
        · cases step
      · cases step
  | receive message =>
      obtain ⟨receiving, accepts⟩ := accepts_of_receive step
      obtain ⟨produced, pending, reader, queue, output, sent, closed, hungUp⟩ := accepts.output
      exact ⟨.kept ⟨produced, pending, reader, queue, output, sent, closed, hungUp⟩,
        .received receiving accepts⟩
  | receiveFailed raised =>
      simp only [Stream.step, Stream.receiveFailed] at step
      split at step
      · exact Option.some.inj step ▸
          ⟨.kept ⟨rfl, rfl, rfl, rfl, rfl, rfl, id, id⟩,
            .gaveUp ⟨rfl, rfl, rfl, rfl, rfl, id, id⟩ rfl⟩
      · cases step
  | write length =>
      simp only [Stream.step, Stream.write] at step
      split at step
      · rename_i writing
        split at step
        · rename_i able
          obtain ⟨-, opened, alive, -, available⟩ := able
          exact Option.some.inj step ▸
            ⟨.kept ⟨rfl, rfl, rfl, rfl, rfl, rfl, id, id⟩, .write writing opened alive available⟩
        · cases step
      · cases step
  | writeStopped =>
      simp only [Stream.step, Stream.writeStopped] at step
      split at step
      · split at step
        · rename_i able
          exact Option.some.inj step ▸
            ⟨.kept ⟨rfl, rfl, rfl, rfl, rfl, rfl, id, id⟩, .writeStopped able.2⟩
        · cases step
      · cases step
  | writeFailed =>
      simp only [Stream.step, Stream.writeFailed] at step
      split at step
      · split at step
        · exact Option.some.inj step ▸
            ⟨.kept ⟨rfl, rfl, rfl, rfl, rfl, rfl, id, id⟩,
              .gaveUp ⟨rfl, rfl, rfl, rfl, rfl, id, id⟩ rfl⟩
        · cases step
      · cases step
  | refused raised =>
      simp only [Stream.step, Stream.refused] at step
      split at step
      · cases raised with
        | none =>
            exact Option.some.inj step ▸
              ⟨.kept ⟨rfl, rfl, rfl, rfl, rfl, rfl, id, id⟩,
                .gaveUp ⟨rfl, rfl, rfl, rfl, rfl, id, id⟩ rfl⟩
        | some raised =>
            obtain ⟨kept, input⟩ : Kept state (state.lose raised) := .lose raised
            exact Option.some.inj step ▸ ⟨.kept ⟨kept.produced, kept.pending, kept.reader,
              kept.queue, kept.output, kept.binaries, kept.closed, kept.hungUp⟩,
              .gaveUp ⟨input.received, rfl, input.written, input.columns, input.rows, input.closed,
                input.hungUp⟩ rfl⟩
      · cases step
  | _ =>
      have kept := kept_of_step rfl step
      exact ⟨.kept kept.output, .kept kept.input⟩

theorem outputMoves_of_step {action : StreamAction}
    (step : state.step tooDeep limits action = some next) : OutputMoves state next :=
  (moves_of_step step).1

theorem inputMoves_of_step {action : StreamAction}
    (step : state.step tooDeep limits action = some next) : InputMoves state next :=
  (moves_of_step step).2

end Steps

end OpsComposer.Terminals
