import OpsComposer.Foundations.Json
import OpsComposer.Foundations.Transition
import OpsComposer.Services.WebShell

/-!
# The stream of a web shell

`WebShellManager.stream` relays between a WebSocket and the PTY of an SSH client.  While it
serves, four tasks run beside it: one pumps the output, with a reader of its own and a bounded
queue between them, one pumps the input, one waits for the process, and one monitors the time
limits and renews the lease.  The event loop runs one of them at a time, up to its next `await`.

A state has what these tasks share and where each of them stands; an action is what the event
loop runs next, with what the awaited call has come to.  Beside what the program has, a state
keeps the bytes that the remote side has written, the frames that have come from the client and
those that have been handed to the socket, and the calls of the service.

The cancellation of the stream itself is left out, and so are the audit events.
-/

set_option autoImplicit false

namespace OpsComposer.Domain

/-- `WebShellCloseReason`. -/
inductive WebShellCloseReason where
  | clientDisconnected
  | userRequested
  | remoteExit
  | idleTimeout
  | maxDuration
  | authSessionInvalid
  | databaseUnavailable
  | serverShutdown
  | startFailed
  | protocolError
  | slowConsumer
  deriving DecidableEq, Repr

end OpsComposer.Domain

namespace OpsComposer.Services.WebShellManager

open Domain Foundations Services

/-- `WEB_SHELL_HEARTBEAT_SECONDS`. -/
def heartbeatSeconds : Nat := 10

/-- `WEB_SHELL_MAX_FRAME_BYTES`. -/
def maxFrameBytes : Nat := 64 * 1024

/-- `WEB_SHELL_OUTPUT_BUFFER_BYTES`. -/
def outputBufferBytes : Nat := 1024 * 1024

/-- The `maxsize` of the queue between the reader and the pump. -/
def queueSize : Nat := outputBufferBytes / maxFrameBytes

/-- `WEB_SHELL_SEND_TIMEOUT_SECONDS`. -/
def sendTimeoutSeconds : Nat := 10

/-- The least number of columns that a client may ask for. -/
def minColumns : Nat := 20

/-- The greatest number of columns. -/
def maxColumns : Nat := 500

/-- The least number of rows. -/
def minRows : Nat := 5

/-- The greatest number of rows. -/
def maxRows : Nat := 200

/-- `web_shell_max_duration_seconds` and `web_shell_idle_timeout_seconds`, in microseconds. -/
structure Limits where
  maxDuration : Nat
  idleTimeout : Nat

/-- What an awaited call raises. -/
inductive Fault where
  | opsError (code publicMessage : String)
  /-- `SshTerminalStartError`. -/
  | startError
  /-- `WebSocketDisconnect`. -/
  | disconnected
  /-- `RuntimeError`, such as that of a socket that is not connected. -/
  | runtimeError
  | other
  deriving DecidableEq, Repr

/-- `suppress(RuntimeError, WebSocketDisconnect)`. -/
def Fault.suppressed : Fault → Bool
  | .disconnected | .runtimeError => true
  | _ => false

/-- What is handed to the socket. -/
inductive Frame where
  | ready
  | binary (data : Bytes)
  | error (code message : String)
  | closed (reason : WebShellCloseReason) (exitCode : Option Int)
  deriving DecidableEq, Repr

/-- What `websocket.receive()` returns. -/
inductive Message where
  | disconnect
  | binary (data : Bytes)
  | text (value : Text)
  /-- Neither bytes nor a text. -/
  | other
  deriving DecidableEq, Repr

/-- `websocket.application_state`. -/
inductive Connection where
  | connecting
  | connected
  | disconnected
  deriving DecidableEq, Repr

/-- The SSH client, its PTY and what is in it. -/
structure SshTerminal where
  /-- What the remote side has written and nobody has read. -/
  pending : Bytes := []
  /-- What has been written to the PTY. -/
  input : Bytes := []
  columns : Nat := 120
  rows : Nat := 30
  /-- The other side of the PTY is closed: reading at the end and writing fail with `EIO`. -/
  hungUp : Bool := false
  closed : Bool := false
  returncode : Option Int := none

/-! ## Where the tasks stand -/

/-- What a task has returned or raised. -/
abbrev Result := Except Fault WebShellCloseReason

/-- `read_terminal`. -/
inductive Reader where
  /-- `await active.terminal.read(…)`. -/
  | reading
  /-- `await queue.put(data)`. -/
  | putting (data : Bytes)
  /-- `await queue.put(None)`. -/
  | ending
  | done
  | failed
  deriving DecidableEq

/-- `_pump_output`. -/
inductive Output where
  /-- `await queue.get()`. -/
  | getting
  /-- `await asyncio.wait_for(websocket.send_bytes(data), …)`, with its deadline. -/
  | sending (deadline : Nat)
  /-- `await reader`. -/
  | joining
  /-- In `finally`, with the reader cancelled. -/
  | leaving (result : Result)
  | ended (result : Result)
  deriving DecidableEq

/-- `_pump_input`. -/
inductive Input where
  /-- `await websocket.receive()`. -/
  | receiving
  /-- `await active.terminal.write(data)`, with what is left to be written. -/
  | writing (rest : Bytes)
  /-- `await self._send_error(…)`. -/
  | refusing
  | ended (result : Result)
  deriving DecidableEq

/-- `_monitor`. -/
inductive Monitor where
  /-- `await asyncio.sleep(1)`. -/
  | sleeping (wakeAt : Nat)
  /-- `await self._service.heartbeat(…)`, with the time that was read before. -/
  | beating (now : Nat)
  | ended (reason : WebShellCloseReason)
  deriving DecidableEq

/-- `active.terminal.wait()`. -/
inductive Process where
  | waiting
  | ended (code : Int)
  deriving DecidableEq

/-- `stream`. -/
inductive Phase where
  /-- `await self._service.claim(…)`. -/
  | claiming
  /-- `await websocket.accept()`, until the client's first message is there. -/
  | accepting
  /-- The same, once the message that accepts is handed to the server. -/
  | confirming
  /-- `await SshTerminal.start(…)`. -/
  | starting
  /-- `async with self._active_lock`, to register. -/
  | registering
  /-- `await websocket.send_json(…)` of the ready frame. -/
  | readying
  /-- `await asyncio.wait(tasks, return_when=asyncio.FIRST_COMPLETED)`. -/
  | serving
  /-- `await asyncio.gather(*pending, …)`. -/
  | gathering (reason : WebShellCloseReason) (exitCode : Option Int)
  /-- Sending an error, or rejecting the connection. -/
  | handling (reason : WebShellCloseReason)
  /-- `await terminal.close()`, before and after the PTY has been closed. -/
  | closing (reason : WebShellCloseReason) (exitCode : Option Int)
  | awaiting (reason : WebShellCloseReason) (exitCode : Option Int)
  /-- `async with self._active_lock`, to unregister. -/
  | unregistering (reason : WebShellCloseReason) (exitCode : Option Int)
  /-- `await self._service.finish(…)`. -/
  | finishing (reason : WebShellCloseReason) (exitCode : Option Int)
  /-- `await websocket.send_json(…)` of the closed frame. -/
  | notifying
  /-- `await websocket.close(code=1000)`. -/
  | hangingUp
  | finished
  deriving DecidableEq

/-- A stream, with its `ActiveWebShell`. -/
structure Stream where
  clock : Nat
  phase : Phase := .claiming
  connection : Connection := .connecting
  claimed : Bool := false
  /-- `terminal is not None`. -/
  started : Bool := false
  terminal : SshTerminal := {}
  /-- The stream is in `self._active`. -/
  registered : Bool := false
  startedMonotonic : Nat := 0
  lastActivityMonotonic : Nat := 0
  requestedCloseReason : Option WebShellCloseReason := none
  /-- `self._shutdown` is set. -/
  shutdown : Bool := false
  /-- Somebody else is going to close the terminal. -/
  closeAsked : Bool := false
  /-- The tasks of `_serve` have been created; those that were pending have been cancelled. -/
  spawned : Bool := false
  cancelled : Bool := false
  readerCancelled : Bool := false
  queue : List (Option Bytes) := []
  reader : Reader := .reading
  output : Output := .getting
  input : Input := .receiving
  monitor : Monitor := .sleeping 0
  nextHeartbeat : Nat := 0
  process : Process := .waiting
  /-- What the remote side has written. -/
  produced : Bytes := []
  received : List Message := []
  sent : List Frame := []
  /-- The times of the heartbeats, each with that of the last activity. -/
  heartbeats : List (Nat × Nat) := []
  finishes : List (WebShellCloseReason × Option Int) := []

/-! ## Control frames -/

/-- What a control frame comes to. -/
inductive Control where
  | resize (columns rows : Nat)
  | close
  /-- An error frame with this message. -/
  | invalid (message : String)
  /-- `json.loads` has raised something that is not caught. -/
  | raised
  deriving DecidableEq, Repr

/-- `isinstance(value, int) and not isinstance(value, bool)` and between two bounds. -/
def sizeWithin (low high : Nat) : Option Foundations.Json → Option Nat
  | some (.int value) => if (low : Int) ≤ value ∧ value ≤ high then some value.toNat else none
  | _ => none

section Actions

variable (tooDeep : Text → Bool)

/-- What `_handle_control` makes of a frame; too deep a nesting raises `RecursionError`. -/
def control (value : Text) : Control :=
  if tooDeep value then .raised
  else
    match Foundations.Json.loads value with
    | .error .tooManyDigits => .raised
    | .error .decodeError => .invalid "Invalid control frame"
    | .ok (.obj members) =>
        match members.lookup (text "type") with
        | some (.str kind) =>
            if kind = text "close" then .close
            else if kind = text "resize" then
              match sizeWithin minColumns maxColumns (members.lookup (text "columns")),
                sizeWithin minRows maxRows (members.lookup (text "rows")) with
              | some columns, some rows => .resize columns rows
              | _, _ => .invalid "Invalid terminal size"
            else .invalid "Unknown control frame"
        | _ => .invalid "Unknown control frame"
    | .ok _ => .invalid "Invalid control frame"

namespace Stream

variable (state : Stream)

/-- `active.touch()`. -/
def touch : Stream := { state with lastActivityMonotonic := state.clock }

/-- A call of `websocket.send_…`. -/
def send (frame : Frame) : Stream := { state with sent := state.sent ++ [frame] }

/-- `_send_error`, up to its `await`. -/
def sendError (code message : String) : Stream :=
  if state.connection = .connected then state.send (.error code message) else state

/-- `_reject_or_send_error`, up to its `await`. -/
def rejectOrSendError (code message : String) : Stream :=
  if state.connection = .connecting then { state with connection := .disconnected }
  else state.sendError code message

/-- A call on the socket that has found it gone. -/
def lose (raised : Fault) : Stream :=
  if raised = .disconnected then { state with connection := .disconnected } else state

/-- The tasks of `_serve` run. -/
def Runs : Prop := state.spawned = true ∧ state.cancelled = false

instance : Decidable state.Runs := by
  unfold Runs
  infer_instance

/-! ## The output -/

/-- The reader leaves an `await`. -/
def read (length : Nat) : Option Stream :=
  if state.Runs ∧ state.readerCancelled = false ∧ state.reader = .reading ∧
      state.terminal.closed = false ∧ 0 < length ∧ length ≤ maxFrameBytes ∧
        length ≤ state.terminal.pending.length then
    some { state.touch with
      terminal := { state.terminal with pending := state.terminal.pending.drop length }
      reader := .putting (state.terminal.pending.take length) }
  else none

/-- `read` has returned `b""`: the terminal is closed, or there is nothing more to come. -/
def readEnd : Option Stream :=
  if state.Runs ∧ state.readerCancelled = false ∧ state.reader = .reading ∧
      (state.terminal.closed = true ∨
        (state.terminal.hungUp = true ∧ state.terminal.pending = [])) then
    some { state with reader := .ending }
  else none

/-- The read of the PTY fails, and its callback leaves. -/
def readFailed : Option Stream :=
  if state.Runs ∧ state.readerCancelled = false ∧ state.reader = .reading then
    some { state with reader := .failed }
  else none

/-- `queue.put` finds room. -/
def put : Option Stream :=
  if state.Runs ∧ state.readerCancelled = false ∧ state.queue.length < queueSize then
    match state.reader with
    | .putting data =>
        some { state with queue := state.queue ++ [some data], reader := .reading }
    | .ending => some { state with queue := state.queue ++ [none], reader := .done }
    | _ => none
  else none

/-- `queue.get` returns, and the data goes to the socket. -/
def take : Option Stream :=
  if state.Runs ∧ state.output = .getting then
    match state.queue with
    | [] => none
    | none :: rest => some { state with queue := rest, output := .joining }
    | some data :: rest =>
        if state.connection = .connected then
          some { state.send (.binary data) with
            queue := rest
            output := .sending (state.clock + seconds sendTimeoutSeconds) }
        else
          some { state with
            queue := rest, readerCancelled := true, output := .leaving (.error .runtimeError) }
  else none

/-- `websocket.send_bytes` returns or raises. -/
def delivered (raised : Option Fault) : Option Stream :=
  match state.output with
  | .sending _ =>
      if state.Runs then
        match raised with
        | none => some { state with output := .getting }
        | some raised => some { state.lose raised with
            readerCancelled := true, output := .leaving (.error raised) }
      else none
  | _ => none

/-- `asyncio.wait_for` raises `TimeoutError`. -/
def sendTimeout : Option Stream :=
  match state.output with
  | .sending deadline =>
      if state.Runs ∧ deadline ≤ state.clock then
        some { state with readerCancelled := true, output := .leaving (.ok .slowConsumer) }
      else none
  | _ => none

/-- `await reader` returns. -/
def joined : Option Stream :=
  if state.Runs ∧ state.output = .joining ∧ state.reader = .done then
    some { state with output := .leaving (.ok .remoteExit) }
  else none

/-- The pump is done. -/
def left : Option Stream :=
  match state.output with
  | .leaving result => if state.Runs then some { state with output := .ended result } else none
  | _ => none

/-! ## The input -/

/-- Refuse a frame and end, with an error frame if it gets one. -/
def refuse (code message : String) : Stream :=
  { state.sendError code message with input := .refusing }

/-- What `_pump_input` does with a frame. -/
def accept : Message → Stream
  | .disconnect => { state with input := .ended (.ok .clientDisconnected) }
  | .binary data =>
      if maxFrameBytes < data.length then
        state.refuse "web_shell_frame_too_large" "Terminal input is too large"
      else if data = [] then state
      else { state.touch with input := .writing data }
  | .text value =>
      match Text.encode value with
      | none => { state with input := .ended (.error .other) }
      | some encoded =>
          if maxFrameBytes < encoded.length then
            { state with input := .ended (.ok .protocolError) }
          else
            match control tooDeep value with
            | .close => { state with input := .ended (.ok .userRequested) }
            | .invalid message => state.refuse "web_shell_protocol_error" message
            | .raised => { state with input := .ended (.error .other) }
            | .resize columns rows =>
                if state.terminal.closed then state.touch
                else { state.touch with
                  terminal := { state.terminal with columns := columns, rows := rows } }
  | .other => { state with input := .ended (.ok .protocolError) }

/-- `websocket.receive` returns. -/
def receive (message : Message) : Option Stream :=
  if state.Runs ∧ state.input = .receiving then
    some ({ state with received := state.received ++ [message] }.accept tooDeep message)
  else none

/-- `websocket.receive` raises. -/
def receiveFailed (raised : Fault) : Option Stream :=
  if state.Runs ∧ state.input = .receiving then
    some { state with input := .ended (if raised = .disconnected then .ok .clientDisconnected
      else .error raised) }
  else none

/-- `os.write` takes some of the data. -/
def write (length : Nat) : Option Stream :=
  match state.input with
  | .writing rest =>
      if state.Runs ∧ state.terminal.closed = false ∧ state.terminal.hungUp = false ∧
          0 < length ∧ length ≤ rest.length then
        some { state with
          terminal := { state.terminal with input := state.terminal.input ++ rest.take length }
          input := if rest.length = length then .receiving else .writing (rest.drop length) }
      else none
  | _ => none

/-- `write` returns with data left: the terminal is closed, or its other side is. -/
def writeStopped : Option Stream :=
  match state.input with
  | .writing _ =>
      if state.Runs ∧ (state.terminal.closed = true ∨ state.terminal.hungUp = true) then
        some { state with input := .receiving }
      else none
  | _ => none

/-- The write to the PTY fails, which ends the task of the input. -/
def writeFailed : Option Stream :=
  match state.input with
  | .writing _ => if state.Runs then some { state with input := .ended (.error .other) } else none
  | _ => none

/-- The sending of the error frame is over; some errors are suppressed. -/
def refused (raised : Option Fault) : Option Stream :=
  if state.Runs ∧ state.input = .refusing then
    match raised with
    | none => some { state with input := .ended (.ok .protocolError) }
    | some raised => some { state.lose raised with
        input := .ended (if raised.suppressed then .ok .protocolError else .error raised) }
  else none

/-! ## The monitor and the process -/

/-- `asyncio.sleep(1)` is over. -/
def wake (limits : Limits) : Option Stream :=
  match state.monitor with
  | .sleeping wakeAt =>
      if state.Runs ∧ wakeAt ≤ state.clock then
        if state.shutdown then some { state with monitor := .ended .serverShutdown }
        else if limits.maxDuration ≤ state.clock - state.startedMonotonic then
          some { state with monitor := .ended .maxDuration }
        else if limits.idleTimeout ≤ state.clock - state.lastActivityMonotonic then
          some { state with monitor := .ended .idleTimeout }
        else if state.clock < state.nextHeartbeat then
          some { state with monitor := .sleeping (state.clock + seconds 1) }
        else
          some { state with
            monitor := .beating state.clock
            heartbeats := state.heartbeats ++ [(state.clock, state.lastActivityMonotonic)] }
      else none
  | _ => none

/-- Why a heartbeat tells to close. -/
def closeReason : WebShellService.CloseReason → WebShellCloseReason
  | .userRequested => .userRequested
  | .authSessionInvalid => .authSessionInvalid

/-- `self._service.heartbeat` returns, or raises. -/
def beaten (answer : Option (Option WebShellService.CloseReason)) : Option Stream :=
  match state.monitor with
  | .beating now =>
      if state.Runs then
        match answer with
        | none => some { state with monitor := .ended .databaseUnavailable }
        | some (some reason) => some { state with monitor := .ended (closeReason reason) }
        | some none => some { state with
            monitor := .sleeping (state.clock + seconds 1)
            nextHeartbeat := now + seconds heartbeatSeconds }
      else none
  | _ => none

/-- `process.wait()` returns. -/
def reap : Option Stream :=
  if state.Runs ∧ state.process = .waiting then
    state.terminal.returncode.map fun code => { state with process := .ended code }
  else none

/-! ## The stream itself -/

/-- The `finally` of `stream`, up to its first `await`. -/
def finalize (reason : WebShellCloseReason) (exitCode : Option Int) : Stream :=
  { state with
    phase := if state.started then .closing reason exitCode else .unregistering reason exitCode }

/-- The `except` clauses of `stream`. -/
def fail : Fault → Stream
  | .opsError code publicMessage =>
      { state.rejectOrSendError code publicMessage with phase := .handling .startFailed }
  | .startError =>
      { state.sendError "web_shell_unavailable" "Web Shell could not start the SSH client" with
        phase := .handling .startFailed }
  | .disconnected => state.finalize .clientDisconnected none
  | _ =>
      { state.rejectOrSendError "web_shell_unavailable" "Web Shell connection failed" with
        phase := .handling .databaseUnavailable }

/-- The result of the tasks that are done, the process before the monitor, and that before the
pumps; `none` when none is. -/
def outcome : Option (Except Fault (WebShellCloseReason × Option Int)) :=
  match state.process, state.monitor, state.input, state.output with
  | .ended code, _, _, _ =>
      some (.ok (if code = 255 then .startFailed else .remoteExit, some code))
  | _, .ended reason, _, _ => some (.ok (reason, none))
  | _, _, .ended result, _ => some (result.map fun reason => (reason, none))
  | _, _, _, .ended result => some (result.map fun reason => (reason, none))
  | _, _, _, _ => none

/-- `_send_closed`, up to its first `await`. -/
def sendClosed (reason : WebShellCloseReason) (exitCode : Option Int) : Stream :=
  if state.connection = .connected then
    { state.send (.closed reason exitCode) with phase := .notifying }
  else { state with phase := .finished }

/-- `stream` goes on, with what the awaited call has raised.  The socket counts as connected
from the sending of the acceptance on, whether or not that succeeds. -/
def resume (raised : Option Fault) : Option Stream :=
  match state.phase with
  | .claiming =>
      some (match raised with
        | none => { state with claimed := true, phase := .accepting }
        | some raised => state.fail raised)
  | .accepting =>
      some (match raised with
        | none => { state with connection := .connected, phase := .confirming }
        | some raised => (state.lose raised).fail raised)
  | .confirming =>
      some (match raised with
        | none => { state with phase := .starting }
        | some raised => (state.lose raised).fail raised)
  | .starting =>
      some (match raised with
        | none => { state with
            started := true
            startedMonotonic := state.clock
            lastActivityMonotonic := state.clock
            phase := .registering }
        | some raised => state.fail raised)
  | .registering => some { state.send .ready with registered := true, phase := .readying }
  | .readying =>
      some (match raised with
        | none => { state with
            spawned := true
            monitor := .sleeping (state.clock + seconds 1)
            nextHeartbeat := state.clock
            phase := .serving }
        | some raised => (state.lose raised).fail raised)
  | .serving =>
      state.outcome.map fun
        | .error raised => state.fail raised
        | .ok (reason, exitCode) => { state with
            cancelled := true
            phase := .gathering (state.requestedCloseReason.getD reason) exitCode }
  | .gathering reason exitCode => some (state.finalize reason exitCode)
  | .handling reason =>
      some (match raised with
        | none => state.finalize reason none
        | some raised =>
            (state.lose raised).finalize (if raised.suppressed then reason else .startFailed) none)
  | .closing reason exitCode =>
      some { state with
        terminal := { state.terminal with closed := true }
        phase := .awaiting reason exitCode }
  | .awaiting reason exitCode =>
      some (match raised with
        | none =>
            let exitCode := exitCode <|> state.terminal.returncode
            { state with
              phase := .unregistering
                (if reason = .remoteExit ∧ exitCode = some 255 then .startFailed else reason)
                exitCode }
        | some _ => { state with phase := .finished })
  | .unregistering reason exitCode =>
      some (if state.claimed then
        { state with
          registered := false
          finishes := state.finishes ++ [(reason, exitCode)]
          phase := .finishing reason exitCode }
      else { state with registered := false }.sendClosed reason exitCode)
  | .finishing reason exitCode => some (state.sendClosed reason exitCode)
  | .notifying =>
      some (match raised with
        | none => { state with connection := .disconnected, phase := .hangingUp }
        | some _ => { state with phase := .finished })
  | .hangingUp => some { state with phase := .finished }
  | .finished => none

end Stream

end Actions

/-! ## The stream among everything else -/

/-- What the two sides and the tasks between them do next. -/
inductive StreamAction where
  | tick (elapsed : Nat)
  /-- The remote side writes. -/
  | emit (data : Bytes)
  | hangUp
  | exit (code : Int)
  /-- `stop` sets the event. -/
  | shutdown
  /-- `stop` or `request_close` finds the stream among the active ones. -/
  | request (reason : WebShellCloseReason)
  /-- Their `terminal.close()`. -/
  | closeTerminal
  | read (length : Nat)
  | readEnd
  | readFailed
  | put
  | take
  | delivered (raised : Option Fault)
  | sendTimeout
  | joined
  | left
  | receive (message : Message)
  | receiveFailed (raised : Fault)
  | write (length : Nat)
  | writeStopped
  | writeFailed
  | refused (raised : Option Fault)
  | wake
  | beaten (answer : Option (Option WebShellService.CloseReason))
  | reap
  | resume (raised : Option Fault)

/-- One step of the environment or of the event loop. -/
def Stream.step (tooDeep : Text → Bool) (limits : Limits) (state : Stream) :
    StreamAction → Option Stream
  | .tick elapsed => some { state with clock := state.clock + elapsed }
  | .emit data =>
      if state.started ∧ state.terminal.hungUp = false then
        some { state with
          terminal := { state.terminal with pending := state.terminal.pending ++ data }
          produced := state.produced ++ data }
      else none
  | .hangUp => some { state with terminal := { state.terminal with hungUp := true } }
  | .exit code =>
      if state.started ∧ state.terminal.returncode = none then
        some { state with terminal := { state.terminal with returncode := some code } }
      else none
  | .shutdown => some { state with shutdown := true }
  | .request reason =>
      if state.registered ∧ (reason = .userRequested ∨
          (reason = .serverShutdown ∧ state.shutdown)) then
        some { state with requestedCloseReason := some reason, closeAsked := true }
      else none
  | .closeTerminal =>
      if state.closeAsked then
        some { state with terminal := { state.terminal with closed := true } }
      else none
  | .read length => state.read length
  | .readEnd => state.readEnd
  | .readFailed => state.readFailed
  | .put => state.put
  | .take => state.take
  | .delivered raised => state.delivered raised
  | .sendTimeout => state.sendTimeout
  | .joined => state.joined
  | .left => state.left
  | .receive message => state.receive tooDeep message
  | .receiveFailed raised => state.receiveFailed raised
  | .write length => state.write length
  | .writeStopped => state.writeStopped
  | .writeFailed => state.writeFailed
  | .refused raised => state.refused raised
  | .wake => state.wake limits
  | .beaten answer => state.beaten answer
  | .reap => state.reap
  | .resume raised => state.resume raised

/-- The streams of a manager with these limits. -/
def streams (tooDeep : Text → Bool) (limits : Limits) : System Stream StreamAction where
  init state := ∃ clock, state = { clock := clock }
  step := Stream.step tooDeep limits

end OpsComposer.Services.WebShellManager
