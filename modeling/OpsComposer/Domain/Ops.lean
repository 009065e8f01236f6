import OpsComposer.Foundations.Trim

/-!
# Runs, targets and events

The records of `domain/ops.py` that the run store keeps.  Identifiers are
opaque: a UUID is a natural number.  An instant is a natural number too, of
microseconds on one clock.
A `dict[str, object]` is a list of named JSON values in insertion order.

The one-time facts about statuses stand here: `RunStatus.active` and
`RunStatus.terminal` partition the statuses of claimed and ended runs, and
`RunStatus.Moves` is the life cycle drawn in the design document.
-/

set_option autoImplicit false

namespace OpsComposer.Domain

/-- A UUID. -/
abbrev Uuid := Nat

/-! ## JSON values -/

/-- The values a `jsonb` column can hold; numbers are integers. -/
inductive Json where
  | null
  | bool (value : Bool)
  | num (value : Int)
  | str (value : String)
  | arr (items : List Json)
  | obj (fields : List (String × Json))
  deriving Inhabited

/-- A `dict[str, object]`. -/
abbrev Dict := List (String × Json)

/-- `dict.get(name)`. -/
def Dict.get? (dict : Dict) (name : String) : Option Json :=
  (dict.find? fun entry => entry.1 == name).map Prod.snd

/-- `dict[name] = value`. -/
def Dict.set (dict : Dict) (name : String) (value : Json) : Dict :=
  if dict.any fun entry => entry.1 == name then
    dict.map fun entry => if entry.1 == name then (name, value) else entry
  else dict ++ [(name, value)]

/-! ## What a domain model makes of its texts -/

/-- A text without the white space around it: `str_strip_whitespace` of `StrictDomainModel`. -/
def stripped (s : String) : String :=
  String.ofList (Foundations.trim (fun c => Foundations.isWhiteSpace c.toNat) s.toList)

/-- The names of a `dict[str, object]` are texts too. -/
def Dict.stripped (dict : Dict) : Dict :=
  dict.foldl (fun kept entry => kept.set (Domain.stripped entry.1) entry.2) []

/-! ## Statuses -/

/-- The kinds of a run. -/
inductive RunKind where
  | ping
  | command
  | playbook
  deriving DecidableEq, Repr

/-- The states of a run. -/
inductive RunStatus where
  | queued
  | preparing
  | running
  | succeeded
  | partly
  | failed
  | canceled
  | timedOut
  | interrupted
  | rejected
  deriving DecidableEq, Repr

/-- The states of a run on one host. -/
inductive RunTargetStatus where
  | pending
  | running
  | succeeded
  | failed
  | canceled
  | skipped
  | unreachable
  | interrupted
  deriving DecidableEq, Repr

/-- The stored text of a run kind. -/
def RunKind.value : RunKind → String
  | .ping => "PING"
  | .command => "COMMAND"
  | .playbook => "PLAYBOOK"

/-- How the fingerprint of a request was computed. -/
inductive RequestFingerprintScheme where
  | legacySha256
  | hmacSha256V1
  deriving DecidableEq, Repr

namespace RunStatus

/-- The stored text of a status. -/
def value : RunStatus → String
  | queued => "QUEUED"
  | preparing => "PREPARING"
  | running => "RUNNING"
  | succeeded => "SUCCEEDED"
  | partly => "PARTIAL"
  | failed => "FAILED"
  | canceled => "CANCELED"
  | timedOut => "TIMED_OUT"
  | interrupted => "INTERRUPTED"
  | rejected => "REJECTED"

/-- `TERMINAL_RUN_STATUSES`. -/
def terminal : RunStatus → Bool
  | queued | preparing | running => false
  | succeeded | partly | failed | canceled | timedOut | interrupted | rejected => true

/-- `status IN ('PREPARING', 'RUNNING')`: the run is held by a worker. -/
def active : RunStatus → Bool
  | preparing | running => true
  | _ => false

/-- `status IN ('QUEUED', 'PREPARING', 'RUNNING')`. -/
def cancelable : RunStatus → Bool
  | queued | preparing | running => true
  | _ => false

theorem not_terminal_of_active {status : RunStatus} (h : status.active = true) :
    status.terminal = false := by
  cases status <;> simp_all [active, terminal]

theorem not_active_of_terminal {status : RunStatus} (h : status.terminal = true) :
    status.active = false := by
  cases status <;> simp_all [active, terminal]

theorem cancelable_eq_not_terminal (status : RunStatus) : status.cancelable = !status.terminal := by
  cases status <;> rfl

/-- The moves of the life cycle, in one step. -/
inductive Moves : RunStatus → RunStatus → Prop where
  | claim : Moves queued preparing
  | cancel : Moves queued canceled
  | start : Moves preparing running
  | reject {status : RunStatus} (ends : status.terminal = true) : Moves preparing status
  | finish {status : RunStatus} (ends : status.terminal = true) : Moves running status

variable {after before : RunStatus}

theorem Moves.of_active (held : before.active = true)
    (ends : after.terminal = true) : Moves before after := by
  cases before with
  | preparing => exact .reject ends
  | running => exact .finish ends
  | _ => cases held

/-- A terminal status has no move out of it. -/
theorem Moves.source_not_terminal (move : Moves before after) : before.terminal = false := by
  cases move <;> rfl

/-- No move leads back to the queue. -/
theorem Moves.target_ne_queued (move : Moves before after) : after ≠ queued := by
  rintro rfl
  cases move with
  | reject ends | finish ends => cases ends

end RunStatus

namespace RunTargetStatus

/-- `status IN ('PENDING', 'RUNNING')`: the target has no result yet. -/
def open? : RunTargetStatus → Bool
  | pending | running => true
  | _ => false

end RunTargetStatus

/-! ## Records -/

/-- A row of `runs`; `nextEventSequence` is the column that numbers the events. -/
structure Run where
  runId : Uuid
  sourceRunId : Option Uuid := none
  kind : RunKind
  status : RunStatus
  targetSpec : Dict
  resolvedTargets : List Dict
  operationSpec : Dict
  inventorySnapshot : Dict
  workspaceRevision : Option String := none
  playbookId : Option Uuid := none
  playbookRevision : Option Nat := none
  credentialVersions : Dict
  timeoutSeconds : Nat
  forks : Nat
  cancelRequestedAt : Option Nat := none
  claimedBy : Option String := none
  claimedAt : Option Nat := none
  startedAt : Option Nat := none
  finishedAt : Option Nat := none
  returnCode : Option Int := none
  summary : Dict := []
  failureCode : Option String := none
  failureMessage : Option String := none
  requestedBy : Uuid
  idempotencyKey : String
  requestFingerprint : String
  requestFingerprintScheme : RequestFingerprintScheme := .legacySha256
  createdAt : Nat
  updatedAt : Nat
  nextEventSequence : Nat := 1

/-- A row of `run_targets`. -/
structure RunTarget where
  runTargetId : Uuid
  runId : Uuid
  hostId : Uuid
  hostName : String
  hostAddress : String
  status : RunTargetStatus
  returnCode : Option Int := none
  stdout : String := ""
  stderr : String := ""
  result : Dict := []
  outputTruncated : Bool := false
  changedCount : Nat := 0
  failedCount : Nat := 0
  unreachableCount : Nat := 0
  startedAt : Option Nat := none
  finishedAt : Option Nat := none

/-- A row of `run_events`. -/
structure RunEvent where
  runEventId : Uuid
  runId : Uuid
  runTargetId : Option Uuid := none
  sequence : Nat
  eventType : String
  task : Option String := none
  stdout : Option String := none
  eventData : Dict := []
  createdAt : Nat

/-- A row of `worker_leases`. -/
structure WorkerLease where
  workerId : String
  runId : Option Uuid := none
  heartbeatAt : Nat
  expiresAt : Nat

end OpsComposer.Domain
