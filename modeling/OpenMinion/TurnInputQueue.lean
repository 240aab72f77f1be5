import OpenMinion.JsonValues
import OpenMinion.ListPositions
import OpenMinion.PythonText

/-!
# The turn-input queue

User inputs that wait for a turn. Every operation runs under the lock and edits the one list in place, so that one that
raises leaves what it had edited by then. Clock readings and drawn identifiers are arguments.
-/
namespace OpenMinion.TurnInputQueue
open JsonValues ListPositions PythonText

inductive TurnInputIntent where
  | queueNext
  | steerCurrent
  | cancelCurrent
  | cancelCurrentAndRunNext
  | dropQueued
  | moveQueued
  deriving DecidableEq

def TurnInputIntent.ofText (text : String) : Option TurnInputIntent :=
  if text = "queue_next" then some .queueNext
  else if text = "steer_current" then some .steerCurrent
  else if text = "cancel_current" then some .cancelCurrent
  else if text = "cancel_current_and_run_next" then some .cancelCurrentAndRunNext
  else if text = "drop_queued" then some .dropQueued
  else if text = "move_queued" then some .moveQueued
  else none

inductive TurnInputQueueStatus where
  | queued
  | reserved
  | running
  | completed
  | cancelled
  | failed
  | dropped
  | steerDeferred
  deriving DecidableEq

namespace TurnInputQueueStatus

def value : TurnInputQueueStatus → String
  | .queued => "queued"
  | .reserved => "reserved"
  | .running => "running"
  | .completed => "completed"
  | .cancelled => "cancelled"
  | .failed => "failed"
  | .dropped => "dropped"
  | .steerDeferred => "steer_deferred"

def ofText (text : String) : Option TurnInputQueueStatus :=
  [queued, reserved, running, completed, cancelled, failed, dropped, steerDeferred].find? (·.value = text)

/-- `_QUEUE_ACTIVE_STATUSES`. -/
def active : TurnInputQueueStatus → Bool
  | .queued | .reserved | .running => true
  | _ => false

end TurnInputQueueStatus

structure TurnInputQueueEntry where
  queueId : String
  sessionId : String
  agentId : String
  text : String
  intent : TurnInputIntent := .queueNext
  status : TurnInputQueueStatus := .queued
  sourceClient : String := "unknown"
  idempotencyKey : Option String := none
  priority : ℤ := 0
  metadata : Dict := []
  statusVersion : ℕ := 1
  createdAt : String
  startedAt : Option String := none
  completedAt : Option String := none
  traceId : Option String := none
  targetTraceId : Option String := none
  deriving DecidableEq

structure TurnInputQueueError where
  code : String
  message : String
  details : Dict := []
  deriving DecidableEq

inductive QueueEventType where
  | enqueued
  | dequeued
  | requeued
  | running
  | dropped
  | cancelled
  | steerDeferred
  | completed
  | failed
  deriving DecidableEq

inductive QueueEvent where
  | entry (eventType : QueueEventType) (entry : TurnInputQueueEntry)
  | moved (entry : TurnInputQueueEntry) (beforeQueueId afterQueueId : Option String)
  | queueFull (sessionId : String) (maxPending : ℕ)
  deriving DecidableEq

/-- `_TERMINAL_EVENTS`. -/
def terminalEvent : TurnInputQueueStatus → Option QueueEventType
  | .completed => some .completed
  | .cancelled => some .cancelled
  | .failed => some .failed
  | _ => none

structure Queue where
  maxPendingPerSession : ℕ
  entries : List TurnInputQueueEntry := []
  idempotency : List ((String × String × String) × String) := []
  events : List QueueEvent := []
  deriving DecidableEq

namespace Queue

def start (maxPendingPerSession : ℤ) : Queue := { maxPendingPerSession := (max 1 maxPendingPerSession).toNat }

def emit (q : Queue) (event : QueueEvent) : Queue := { q with events := q.events ++ [event] }

def withEntries (q : Queue) (entries : List TurnInputQueueEntry) : Queue := { q with entries := entries }

@[simp] theorem entries_emit (q : Queue) (event : QueueEvent) : (q.emit event).entries = q.entries := rfl
@[simp] theorem entries_withEntries (q : Queue) (entries : List TurnInputQueueEntry) :
    (q.withEntries entries).entries = entries := rfl
end Queue

abbrev Attempt (Reply : Type) := Except TurnInputQueueError Reply × Queue

def requireNonEmpty (value fieldName : String) : Except TurnInputQueueError String :=
  if strip value = "" then
    .error ⟨"INVALID_REQUEST", fieldName ++ " must be non-empty.", [("field", .str fieldName)]⟩
  else .ok (strip value)

def coerceIntent (value : String) : Except TurnInputQueueError TurnInputIntent :=
  match TurnInputIntent.ofText value with
  | some intent => .ok intent
  | none => .error ⟨"INVALID_INTENT", "Invalid turn input intent: " ++ value, []⟩

def coerceStatus (value : String) : Except TurnInputQueueError TurnInputQueueStatus :=
  match TurnInputQueueStatus.ofText value with
  | some status => .ok status
  | none => .error ⟨"INVALID_STATUS", "Invalid turn input status: " ++ value, []⟩

def idempotencyLookupKey (sessionId agentId : String) (idempotencyKey : Option String) :
    Option (String × String × String) :=
  (stripOrNone idempotencyKey).map fun normalized => (sessionId, agentId, normalized)

/-- `d.setdefault(key, value)`. -/
def setDefault (d : Dict) (key : String) (value : Json) : Dict := if d.has key then d else d ++ [(key, value)]

/-- `source_client=str(source_client or "unknown").strip() or "unknown"`. -/
def sourceClientOr (sourceClient : String) : String :=
  if strip sourceClient = "" then "unknown" else strip sourceClient

structure EnqueueRequest where
  sessionId : String
  agentId : String
  text : String
  intent : String := "queue_next"
  sourceClient : String := "unknown"
  idempotencyKey : Option String := none
  priority : ℤ := 0
  metadata : Dict := []
  steerSupported : Bool := false
  targetTraceId : Option String := none

def newEntry (r : EnqueueRequest) (queueId now : String) : Except TurnInputQueueError TurnInputQueueEntry := do
  let sessionId ← requireNonEmpty r.sessionId "session_id"
  let agentId ← requireNonEmpty r.agentId "agent_id"
  let text ← requireNonEmpty r.text "text"
  let intent ← coerceIntent r.intent
  let entry : TurnInputQueueEntry := {
    queueId := queueId
    sessionId := sessionId
    agentId := agentId
    text := text
    intent := intent
    sourceClient := sourceClientOr r.sourceClient
    idempotencyKey := stripOrNone r.idempotencyKey
    priority := r.priority
    metadata := r.metadata
    createdAt := now
    targetTraceId := stripOrNone r.targetTraceId }
  if intent = .steerCurrent then
    if r.steerSupported then
      let targetTraceId ← requireNonEmpty (stripOr r.targetTraceId) "target_trace_id"
      return { entry with targetTraceId := some targetTraceId }
    else
      return { entry with
        status := .steerDeferred
        metadata := setDefault (setDefault r.metadata "deferred_to" (.str "queue_next")) "reason"
          (.str "steer_current_unsupported_v1") }
  else return entry

def findById (q : Queue) (queueId : String) : Option TurnInputQueueEntry :=
  if queueId = "" then none else q.entries.find? (·.queueId = queueId)

def deduplicated (q : Queue) (key : Option (String × String × String)) : Option TurnInputQueueEntry :=
  match key with
  | none => none
  | some key =>
    match q.idempotency.find? (·.1 = key) with
    | none => none
    | some (_, queueId) => findById q queueId

/-- The entries that `_raise_if_full_locked` counts. -/
def pending (entries : List TurnInputQueueEntry) (sessionId : String) : ℕ :=
  entries.countP fun e => e.sessionId = sessionId ∧ e.status.active

def queueFullError (q : Queue) (sessionId : String) : TurnInputQueueError :=
  ⟨"QUEUE_FULL", "Turn input queue is full.",
    [("session_id", .str sessionId), ("max_pending", .int q.maxPendingPerSession)]⟩

def rememberKey (idempotency : List ((String × String × String) × String)) (key : Option (String × String × String))
    (queueId : String) : List ((String × String × String) × String) :=
  match key with
  | none => idempotency
  | some key => (key, queueId) :: idempotency.filter (·.1 ≠ key)

def enqueueEvent (status : TurnInputQueueStatus) : QueueEventType :=
  if status = .steerDeferred then .steerDeferred else .enqueued

def accept (q : Queue) (key : Option (String × String × String)) (entry : TurnInputQueueEntry) : Queue :=
  ({ q with entries := q.entries ++ [entry], idempotency := rememberKey q.idempotency key entry.queueId }).emit
    (.entry (enqueueEvent entry.status) entry)

def enqueue (q : Queue) (r : EnqueueRequest) (newId now : String) : Attempt TurnInputQueueEntry :=
  match newEntry r newId now with
  | .error e => (.error e, q)
  | .ok entry =>
    let key := idempotencyLookupKey entry.sessionId entry.agentId r.idempotencyKey
    match deduplicated q key with
    | some existing => (.ok existing, q)
    | none =>
      if q.maxPendingPerSession ≤ pending q.entries entry.sessionId then
        (.error (queueFullError q entry.sessionId), q.emit (.queueFull entry.sessionId q.maxPendingPerSession))
      else (.ok entry, accept q key entry)

def findForSession (q : Queue) (sessionId queueId : String) :
    Except TurnInputQueueError (ℕ × TurnInputQueueEntry) := do
  let sessionId ← requireNonEmpty sessionId "session_id"
  let queueId ← requireNonEmpty queueId "queue_id"
  match locate (fun e => e.sessionId = sessionId ∧ e.queueId = queueId) q.entries with
  | some found => return found
  | none => throw ⟨"QUEUE_ENTRY_NOT_FOUND", "Turn input queue entry was not found.",
      [("session_id", .str sessionId), ("queue_id", .str queueId)]⟩

def assertStatusVersion (entry : TurnInputQueueEntry) (statusVersion : Option ℤ) : Except TurnInputQueueError Unit :=
  match statusVersion with
  | none => .ok ()
  | some received =>
    if received ≠ entry.statusVersion then
      .error ⟨"QUEUE_CONFLICT", "Queue entry status_version is stale.",
        [("queue_id", .str entry.queueId), ("expected_status_version", .int entry.statusVersion),
          ("received_status_version", .int received)]⟩
    else .ok ()

/-- `raise TurnInputQueueError("QUEUE_CONFLICT", message, {"queue_id": .., "status": ..})`. -/
def statusConflict (message : String) (entry : TurnInputQueueEntry) : TurnInputQueueError :=
  ⟨"QUEUE_CONFLICT", message, [("queue_id", .str entry.queueId), ("status", .str entry.status.value)]⟩

/-- The queued entry that `drop` and `move` edit. -/
def findQueued (q : Queue) (sessionId queueId : String) (statusVersion : Option ℤ) (message : String) :
    Except TurnInputQueueError (ℕ × TurnInputQueueEntry) := do
  let (index, entry) ← findForSession q sessionId queueId
  assertStatusVersion entry statusVersion
  if entry.status ≠ .queued then throw (statusConflict message entry)
  return (index, entry)

def dropped (entry : TurnInputQueueEntry) (now : String) : TurnInputQueueEntry :=
  { entry with status := .dropped, statusVersion := entry.statusVersion + 1, completedAt := some now }

def drop (q : Queue) (sessionId queueId : String) (statusVersion : Option ℤ) (now : String) :
    Attempt TurnInputQueueEntry :=
  match findQueued q sessionId queueId statusVersion "Only queued entries can be dropped." with
  | .error e => (.error e, q)
  | .ok (index, entry) =>
    let updated := dropped entry now
    (.ok updated, (q.withEntries (q.entries.set index updated)).emit (.entry .dropped updated))

/-- `before_queue_id or after_queue_id or ""`; an empty text counts as none. -/
def moveTarget (beforeQueueId afterQueueId : Option String) : String :=
  if beforeQueueId.getD "" ≠ "" then beforeQueueId.getD "" else afterQueueId.getD ""

/-- `_resolve_move_index_locked`, over the entries without the one that moves. -/
def resolveMoveIndex (entries : List TurnInputQueueEntry) (sessionId : String)
    (beforeQueueId afterQueueId : Option String) : Except TurnInputQueueError ℕ :=
  if moveTarget beforeQueueId afterQueueId = "" then .ok entries.length
  else
    match locate (fun e => e.sessionId = sessionId ∧ e.queueId = moveTarget beforeQueueId afterQueueId) entries with
    | some (index, _) => .ok (if beforeQueueId.getD "" ≠ "" then index else index + 1)
    | none => .error ⟨"QUEUE_ENTRY_NOT_FOUND", "Move target queue entry was not found.",
        [("session_id", .str sessionId), ("target_queue_id", .str (moveTarget beforeQueueId afterQueueId))]⟩

def move (q : Queue) (sessionId queueId : String) (statusVersion : Option ℤ)
    (beforeQueueId afterQueueId : Option String) : Attempt TurnInputQueueEntry :=
  if beforeQueueId.getD "" ≠ "" ∧ afterQueueId.getD "" ≠ "" then
    (.error ⟨"INVALID_MOVE_REQUEST", "Specify only one of before_queue_id or after_queue_id.", []⟩, q)
  else
    match findQueued q sessionId queueId statusVersion "Only queued entries can be moved." with
    | .error e => (.error e, q)
    | .ok (index, entry) =>
      -- The entry is taken out before the target is looked up.
      let rest := q.entries.eraseIdx index
      match resolveMoveIndex rest sessionId beforeQueueId afterQueueId with
      | .error e => (.error e, q.withEntries rest)
      | .ok target =>
        let updated := { entry with statusVersion := entry.statusVersion + 1 }
        (.ok updated, (q.withEntries (rest.insertIdx target updated)).emit (.moved updated beforeQueueId afterQueueId))

def reserved (entry : TurnInputQueueEntry) : TurnInputQueueEntry :=
  { entry with status := .reserved, statusVersion := entry.statusVersion + 1 }

/-- The loop of `reserve_next` stops here. -/
def nextInput (sessionId agentId : String) (e : TurnInputQueueEntry) : Bool :=
  e.sessionId = sessionId ∧ e.agentId = agentId ∧ e.status = .queued ∧ e.intent = .queueNext

def reserveNext (q : Queue) (sessionId agentId : String) (expectedQueueId : Option String) :
    Attempt (Option TurnInputQueueEntry) :=
  match q.entries.find? fun e => e.sessionId = sessionId ∧ e.agentId = agentId ∧ e.status = .reserved with
  | some active => (.error (statusConflict "A queued entry is already reserved." active), q)
  | none =>
    match locate (nextInput sessionId agentId) q.entries with
    | none => (.ok none, q)
    | some (index, entry) =>
      if expectedQueueId.getD "" ≠ "" ∧ entry.queueId ≠ expectedQueueId.getD "" then
        (.error ⟨"QUEUE_CONFLICT", "The next queued entry changed before reservation.",
          [("expected_queue_id", .str (expectedQueueId.getD "")), ("actual_queue_id", .str entry.queueId)]⟩, q)
      else
        let updated := reserved entry
        (.ok (some updated), (q.withEntries (q.entries.set index updated)).emit (.entry .dequeued updated))

/-- The entries that `reserve_steering` does not pass over. -/
def steersTrace (sessionId agentId traceId : String) (e : TurnInputQueueEntry) : Bool :=
  e.sessionId = sessionId ∧ e.agentId = agentId ∧ e.targetTraceId = some traceId ∧ e.intent = .steerCurrent ∧
    e.status = .queued

def emitAll (q : Queue) (eventType : QueueEventType) (entries : List TurnInputQueueEntry) : Queue :=
  entries.foldl (fun q e => q.emit (.entry eventType e)) q

def reserveSteering (q : Queue) (sessionId agentId targetTraceId : String) : Attempt (List TurnInputQueueEntry) :=
  let arguments := do
    let sessionId ← requireNonEmpty sessionId "session_id"
    let agentId ← requireNonEmpty agentId "agent_id"
    let traceId ← requireNonEmpty targetTraceId "target_trace_id"
    return (sessionId, agentId, traceId)
  match arguments with
  | .error e => (.error e, q)
  | .ok (sessionId, agentId, traceId) =>
    let steers := steersTrace sessionId agentId traceId
    let updated := (q.entries.filter steers).map reserved
    (.ok updated,
      emitAll (q.withEntries (q.entries.map fun e => if steers e then reserved e else e)) .dequeued updated)

/-- `_transition_steering_batch`; every lookup of its last line succeeds, because identifiers are not shared. -/
def transitionSteeringBatch (q : Queue) (queueIds : List String) (targetTraceId : String)
    (allowedStatuses : List TurnInputQueueStatus) (eventType : QueueEventType)
    (transition : TurnInputQueueEntry → TurnInputQueueEntry) : Attempt (List TurnInputQueueEntry) :=
  let requestedIds := (queueIds.map strip).filter (· ≠ "")
  if requestedIds = [] then (.ok [], q)
  else
    match requireNonEmpty targetTraceId "target_trace_id" with
    | .error e => (.error e, q)
    | .ok traceId =>
      let found := q.entries.filter (·.queueId ∈ requestedIds)
      if found.length ≠ requestedIds.dedup.length then
        (.error ⟨"QUEUE_ENTRY_NOT_FOUND", "A steering queue entry was not found.",
          [("queue_ids", .list (requestedIds.map .str))]⟩, q)
      else
        match found.find? fun e => e.intent ≠ .steerCurrent ∨ e.targetTraceId ≠ some traceId ∨ e.status ∉ allowedStatuses with
        | some e => (.error (statusConflict "The steering batch state changed before transition." e), q)
        | none =>
          let updated := found.map transition
          (.ok (requestedIds.filterMap fun queueId => updated.find? (·.queueId = queueId)),
            emitAll (q.withEntries (q.entries.map fun e => if e.queueId ∈ requestedIds then transition e else e))
              eventType updated)

def completed (now : String) (entry : TurnInputQueueEntry) : TurnInputQueueEntry :=
  { entry with status := .completed, completedAt := some now, statusVersion := entry.statusVersion + 1 }

def compensated (entry : TurnInputQueueEntry) : TurnInputQueueEntry :=
  { entry with status := .queued, completedAt := none, statusVersion := entry.statusVersion + 1 }

def completeSteering (q : Queue) (queueIds : List String) (targetTraceId now : String) :
    Attempt (List TurnInputQueueEntry) :=
  transitionSteeringBatch q queueIds targetTraceId [.reserved] .completed (completed now)

def compensateSteering (q : Queue) (queueIds : List String) (targetTraceId : String) :
    Attempt (List TurnInputQueueEntry) :=
  transitionSteeringBatch q queueIds targetTraceId [.reserved, .completed] .requeued compensated

def replaceById (q : Queue) (queueId : String)
    (updater : TurnInputQueueEntry → Except TurnInputQueueError TurnInputQueueEntry) : Attempt TurnInputQueueEntry :=
  match locate (fun e => e.queueId = queueId) q.entries with
  | none => (.error ⟨"QUEUE_ENTRY_NOT_FOUND", "Turn input queue entry was not found.", [("queue_id", .str queueId)]⟩, q)
  | some (index, entry) =>
    match updater entry with
    | .error e => (.error e, q)
    | .ok updated =>
      let q := q.withEntries (q.entries.set index updated)
      match terminalEvent updated.status with
      | some eventType => (.ok updated, q.emit (.entry eventType updated))
      | none => (.ok updated, q)

def markRunningEntry (traceId now : String) (entry : TurnInputQueueEntry) :
    Except TurnInputQueueError TurnInputQueueEntry :=
  if entry.status ≠ .reserved then .error (statusConflict "Only reserved entries can start running." entry)
  else .ok { entry with
    status := .running, startedAt := some now, traceId := some traceId, statusVersion := entry.statusVersion + 1 }

def requeueEntry (entry : TurnInputQueueEntry) : Except TurnInputQueueError TurnInputQueueEntry :=
  if entry.status ≠ .reserved ∧ entry.status ≠ .running then
    .error (statusConflict "Only reserved or running entries can be requeued." entry)
  else .ok { entry with
    status := .queued, startedAt := none, traceId := none, statusVersion := entry.statusVersion + 1 }

def markTerminalEntry (status : TurnInputQueueStatus) (now : String) (entry : TurnInputQueueEntry) :
    Except TurnInputQueueError TurnInputQueueEntry :=
  if entry.status ≠ .running then .error (statusConflict "Only running entries can become terminal." entry)
  else .ok { entry with status := status, completedAt := some now, statusVersion := entry.statusVersion + 1 }

def emitOk (eventType : QueueEventType) : Attempt TurnInputQueueEntry → Attempt TurnInputQueueEntry
  | (.ok updated, q) => (.ok updated, q.emit (.entry eventType updated))
  | (.error e, q) => (.error e, q)

def markRunning (q : Queue) (queueId traceId now : String) : Attempt TurnInputQueueEntry :=
  match requireNonEmpty traceId "trace_id" with
  | .error e => (.error e, q)
  | .ok traceId => emitOk .running (replaceById q queueId (markRunningEntry traceId now))

def requeue (q : Queue) (queueId : String) : Attempt TurnInputQueueEntry :=
  emitOk .requeued (replaceById q queueId requeueEntry)

/-- The terminal status of `mark_terminal` and `mark_terminal_by_trace`, with its event. -/
def terminalStatus (status : String) : Except TurnInputQueueError (TurnInputQueueStatus × QueueEventType) :=
  match coerceStatus status with
  | .error e => .error e
  | .ok terminal =>
    match terminalEvent terminal with
    | none => .error ⟨"INVALID_STATUS", "Invalid terminal status: " ++ status, []⟩
    | some eventType => .ok (terminal, eventType)

def markTerminal (q : Queue) (queueId status now : String) : Attempt TurnInputQueueEntry :=
  match terminalStatus status with
  | .error e => (.error e, q)
  | .ok (terminal, _) => replaceById q queueId (markTerminalEntry terminal now)

def markTerminalByTrace (q : Queue) (traceId status now : String) : Attempt (Option TurnInputQueueEntry) :=
  if strip traceId = "" then (.ok none, q)
  else
    match terminalStatus status with
    | .error e => (.error e, q)
    | .ok (terminal, eventType) =>
      match locate (fun e => e.traceId = some (strip traceId) ∧ e.status = .running) q.entries with
      | none => (.ok none, q)
      | some (index, entry) =>
        match markTerminalEntry terminal now entry with
        | .error e => (.error e, q)
        | .ok updated =>
          (.ok (some updated), (q.withEntries (q.entries.set index updated)).emit (.entry eventType updated))

inductive Call where
  | enqueue (request : EnqueueRequest) (newId now : String)
  | drop (sessionId queueId : String) (statusVersion : Option ℤ) (now : String)
  | move (sessionId queueId : String) (statusVersion : Option ℤ) (beforeQueueId afterQueueId : Option String)
  | reserveNext (sessionId agentId : String) (expectedQueueId : Option String)
  | reserveSteering (sessionId agentId targetTraceId : String)
  | completeSteering (queueIds : List String) (targetTraceId now : String)
  | compensateSteering (queueIds : List String) (targetTraceId : String)
  | markRunning (queueId traceId now : String)
  | requeue (queueId : String)
  | markTerminal (queueId status now : String)
  | markTerminalByTrace (traceId status now : String)

inductive Reply where
  | entry (entry : TurnInputQueueEntry)
  | optionalEntry (entry : Option TurnInputQueueEntry)
  | entries (entries : List TurnInputQueueEntry)

def Attempt.as {α : Type} (reply : α → Reply) (a : Attempt α) : Attempt Reply := (a.1.map reply, a.2)

def perform (q : Queue) : Call → Attempt Reply
  | .enqueue request newId now => (enqueue q request newId now).as .entry
  | .drop sessionId queueId statusVersion now => (drop q sessionId queueId statusVersion now).as .entry
  | .move sessionId queueId statusVersion beforeQueueId afterQueueId =>
    (move q sessionId queueId statusVersion beforeQueueId afterQueueId).as .entry
  | .reserveNext sessionId agentId expectedQueueId => (reserveNext q sessionId agentId expectedQueueId).as .optionalEntry
  | .reserveSteering sessionId agentId targetTraceId => (reserveSteering q sessionId agentId targetTraceId).as .entries
  | .completeSteering queueIds targetTraceId now => (completeSteering q queueIds targetTraceId now).as .entries
  | .compensateSteering queueIds targetTraceId => (compensateSteering q queueIds targetTraceId).as .entries
  | .markRunning queueId traceId now => (markRunning q queueId traceId now).as .entry
  | .requeue queueId => (requeue q queueId).as .entry
  | .markTerminal queueId status now => (markTerminal q queueId status now).as .entry
  | .markTerminalByTrace traceId status now => (markTerminalByTrace q traceId status now).as .optionalEntry

end OpenMinion.TurnInputQueue
