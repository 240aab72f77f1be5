import Mathlib.Data.List.Infix
import Mathlib.Data.List.Sort
import OpenMinion.SessionTables

/-!
# Writing session events

`append_event` and `append_turn`, with the canonical form of tool events, the ids derived from it and the insert that
makes a replayed event idempotent. What they use of the platform is collected in `Runtime`.
-/
namespace OpenMinion.SessionEventWrites
open IsoTimestamps JsonValues KeyedTables PythonText SessionTables

structure Runtime where
  /-- `uuid5(NAMESPACE_URL, name).hex`. -/
  uuid5Hex : String → String
  uuid5Hex_ne : ∀ name, uuid5Hex name ≠ ""
  /-- `str(value)` of a value that is not a string. -/
  reprOf : Json → String
  /-- `str.lower`. -/
  lower : String → String
  /-- The text of `redact_sensitive_text`. -/
  redactSensitiveText : String → String
  /-- `int(text)`, `none` for a `ValueError`. -/
  parseInt : String → Option ℤ
  /-- `_task_plan_step_task_id` of a `task_plan.step_started` payload, from the events of
  the session. -/
  stepTaskId : List SessionEventRow → Dict → Except StoreError String

theorem zeroHex_ne_empty : "00000000000000000000000000000000" ≠ "" := by decide

namespace Runtime

variable (rt : Runtime)

/-- `str(value)`. -/
def pyStr : Json → String
  | .str s => s
  | v => rt.reprOf v

/-- `str(value or "")`. -/
def textOr (v : Json) : String := if v.truthy then rt.pyStr v else ""

end Runtime

/-- `a or b` for optional texts. -/
def orText (a b : Option String) : Option String := if a.getD "" = "" then b else a

def sensitiveKeyParts : List String :=
  ["api_key", "authorization", "cookie", "credential", "password", "secret", "token"]

section Canonical

variable (rt : Runtime)

/-- `_bounded_tool_value`; the first argument is the depth that remains. -/
def boundedToolValue : ℕ → Json → Json
  | 0, _ => .str "[TRUNCATED]"
  | d + 1, .dict items =>
    let bounded : Dict := (items.take 50).map fun (key, item) =>
      (key, if sensitiveKeyParts.any fun part => part.toList <:+: (rt.lower key).toList then
        .str "[REDACTED]" else boundedToolValue d item)
    .dict (if items.length > 50 then
      Dict.set bounded "_truncated_fields" (.int (items.length - 50)) else bounded)
  | d + 1, .list items =>
    let bounded := (items.take 50).map (boundedToolValue d)
    .list (if items.length > 50 then
      bounded ++ [.str ("[TRUNCATED " ++ toString (items.length - 50) ++ " ITEMS]")] else bounded)
  | _ + 1, .str s =>
    let redacted := rt.redactSensitiveText s
    if redacted.length > 4096 then
      .str (String.ofList (redacted.toList.take 4096) ++
        "[TRUNCATED " ++ toString (redacted.length - 4096) ++ " CHARS]")
    else .str redacted
  | _ + 1, v => v

def requiredText (payload : Dict) (field : String) : Except StoreError String :=
  let value := strip (rt.textOr (payload.get field))
  if value = "" then .error (.valueError ("canonical tool event requires " ++ field)) else .ok value

/-- `payload.get("schema_version") == 1`. -/
def hasSchemaVersion (payload : Dict) : Bool := (payload.get "schema_version").pyEq (.int 1)

structure ToolLinkage where
  turnScopeId : String
  callId : String
  researchInvocationId : Option String

def ToolLinkage.fields (l : ToolLinkage) : Dict :=
  [("schema_version", Json.int 1), ("turn_scope_id", Json.str l.turnScopeId), ("call_id", Json.str l.callId)] ++
    (match l.researchInvocationId with
      | some rid => [("research_invocation_id", Json.str rid)]
      | none => [])

def researchInvocation (payload : Dict) : Except StoreError (Option String) :=
  if (payload.get "research_invocation_id").truthy then
    (requiredText rt payload "research_invocation_id").map some
  else .ok none

def toolLinkage (payload : Dict) : Except StoreError ToolLinkage := do
  require (hasSchemaVersion payload) (.valueError "canonical tool event requires schema_version=1")
  let turnScopeId ← requiredText rt payload "turn_scope_id"
  let callId ← requiredText rt payload "call_id"
  let invocation ← researchInvocation rt payload
  return ⟨turnScopeId, callId, invocation⟩

def isNonBlankText : Json → Bool
  | .str s => strip s ≠ ""
  | _ => false

def argumentsField (payload : Dict) : Except StoreError Json :=
  match payload.get "sanitized_normalized_arguments" with
  | .dict items => .ok (.dict items)
  | _ => .error (.valueError "tool.call.requested requires sanitized_normalized_arguments object")

def batchIndexField (payload : Dict) : Except StoreError ℤ :=
  match payload.get "batch_index" with
  | .int n => .ok n
  | _ => .error (.valueError "tool.call.requested requires integer batch_index")

def dependsOnField (payload : Dict) : Except StoreError (List Json) :=
  let invalid := StoreError.valueError "tool.call.requested requires depends_on list[str]"
  match payload.get "depends_on" with
  | .list items => if items.all isNonBlankText then .ok items else .error invalid
  | _ => .error invalid

/-- The fields of a `tool.call.requested` payload after its linkage. -/
def requestedFields (payload : Dict) : Except StoreError Dict := do
  let canonicalName ← requiredText rt payload "canonical_name"
  let arguments ← argumentsField payload
  let batchIndex ← batchIndexField payload
  let dependsOn ← dependsOnField payload
  return [("canonical_name", .str canonicalName),
    ("sanitized_normalized_arguments", boundedToolValue rt 6 arguments),
    ("batch_index", .int (max 0 batchIndex)), ("depends_on", .list dependsOn)]

def callOwnedFields : List String :=
  ["arguments", "canonical_name", "name", "sanitized_normalized_arguments", "tool_arguments",
    "tool_name"]

def terminalFields (eventType : String) (payload : Dict) : Except StoreError Dict := do
  let duplicated := callOwnedFields.filter payload.has
  require duplicated.isEmpty (.valueError ("canonical tool result must not contain call-owned fields: "
    ++ ", ".intercalate duplicated))
  let status := rt.lower (← requiredText rt payload "status")
  if eventType = "tool.call.completed" then
    require (status = "success") (.valueError "tool.call.completed requires status=success")
    require (!payload.has "error") (.valueError "tool.call.completed must not contain error")
    return [("status", .str "success"), ("output", boundedToolValue rt 6 (payload.get "output"))]
  else
    require (status ∈ ["error", "blocked", "timeout"])
      (.valueError "tool.call.blocked requires status=error, blocked, or timeout")
    match payload.get "error" with
    | .dict items => return [("status", .str status), ("error", boundedToolValue rt 6 (.dict items))]
    | _ => .error (.valueError "tool.call.blocked requires typed error object")

def phaseFields (eventType : String) (payload : Dict) : Except StoreError Dict :=
  if eventType = "tool.call.requested" then requestedFields rt payload
  else terminalFields rt eventType payload

def canonicalToolPayload (eventType : String) (payload : Dict) :
    Except StoreError (ToolLinkage × Dict) := do
  let linkage ← toolLinkage rt payload
  let rest ← phaseFields rt eventType payload
  return (linkage, linkage.fields ++ rest)

def stableToolEventKey (sessionId : String) (l : ToolLinkage) (phase : String) : String :=
  "openminion:tool-transcript:v1:" ++ sessionId ++ ":" ++ l.turnScopeId ++ ":" ++ l.callId ++ ":" ++
    phase ++ (match l.researchInvocationId with
      | some rid => ":research:" ++ rid
      | none => "")

def stableToolEventId (sessionId : String) (l : ToolLinkage) (phase : String) : String :=
  rt.uuid5Hex (stableToolEventKey sessionId l phase)

end Canonical

def getEventById (db : SessionDb) (eventId : String) : Option SessionEventRow :=
  lookup SessionEventRow.eventId eventId db.sessionEvents

/-- `latest_event_seq_tx`. -/
def latestEventSeq (db : SessionDb) (sessionId : String) : ℕ :=
  ((db.sessionEvents.filter fun e => e.sessionId = sessionId).map SessionEventRow.seq).max?.getD 0

/-- The events of a session, `ORDER BY seq`. -/
def eventsOf (db : SessionDb) (sessionId : String) : List SessionEventRow :=
  (db.sessionEvents.filter fun e => e.sessionId = sessionId).insertionSort fun a b => a.seq ≤ b.seq

structure NewEvent where
  eventId : String
  sessionId : String
  timestamp : DateTime
  eventType : String
  actorType : String
  actorId : Option String := none
  traceId : Option String := none
  spanId : Option String := none
  taskId : Option String := none
  parentEventId : Option String := none
  payload : Dict
  refs : Dict := []
  importance : ℤ
  redaction : String

def NewEvent.row (e : NewEvent) (seq : ℕ) : SessionEventRow where
  eventId := e.eventId
  sessionId := e.sessionId
  seq := seq
  timestamp := e.timestamp
  eventType := e.eventType
  actorType := e.actorType
  actorId := e.actorId
  traceId := e.traceId
  spanId := e.spanId
  taskId := e.taskId
  parentEventId := e.parentEventId
  payload := e.payload
  refs := e.refs
  importance := max 0 (min e.importance 3)
  redaction := e.redaction

def NewEvent.agrees (e : NewEvent) (existing : SessionEventRow) : Bool :=
  existing.sessionId = e.sessionId && existing.eventType = e.eventType &&
  existing.actorType = e.actorType && existing.actorId = e.actorId &&
  existing.traceId = e.traceId && existing.spanId = e.spanId && existing.taskId = e.taskId &&
  existing.parentEventId = e.parentEventId && (Json.dict existing.payload).pyEq (.dict e.payload) &&
  (Json.dict existing.refs).pyEq (.dict e.refs) &&
  existing.importance = max 0 (min e.importance 3) && existing.redaction = e.redaction

/-- The foreign key of `parent_event_id`; an event may name itself. -/
def parentExists (db : SessionDb) (e : NewEvent) : Bool :=
  match e.parentEventId with
  | none => true
  | some parent => parent = e.eventId || (getEventById db parent).isSome

/-- The partial unique indexes: a continuation packet is applied once, and a step of a task
plan is started once; a missing value is never a duplicate. -/
def uniqueEvent (db : SessionDb) (e : NewEvent) : Bool :=
  !db.sessionEvents.any fun r =>
    e.eventType = "session.continuation.applied" && r.eventType = e.eventType &&
      e.parentEventId.isSome && r.parentEventId = e.parentEventId ||
    e.eventType = "task_plan.step_started" && r.eventType = e.eventType &&
      r.sessionId = e.sessionId && e.taskId.isSome && r.taskId = e.taskId

/-- `insert_session_event_tx`. -/
def insertSessionEvent (db : SessionDb) (e : NewEvent) : Except StoreError SessionDb :=
  match getEventById db e.eventId with
  | some existing =>
    if e.agrees existing then .ok db
    else .error (.valueError ("session event idempotency conflict: " ++ e.eventId))
  | none =>
    if db.hasSession e.sessionId && parentExists db e && uniqueEvent db e then
      .ok { db with sessionEvents := db.sessionEvents ++ [e.row (latestEventSeq db e.sessionId + 1)] }
    else .error .integrityError

/-- Arguments of `append_event`; `freshId` is the `uuid4` drawn for an event without a
derived id. -/
structure AppendEvent where
  sessionId : String
  type : Option String := none
  payload : Dict := []
  eventType : Option String := none
  actorType : String := "system"
  actorId : Option String := none
  trace : Dict := []
  refs : Dict := []
  parentEventId : Option String := none
  importance : ℤ := 1
  redaction : Option String := none
  agentId : Option String := none
  traceId : Option String := none
  spanId : Option String := none
  taskId : Option String := none
  parentId : Option String := none
  artifactRefs : Option (List String) := none
  memoryRefs : Option (List String) := none
  status : Option String := none
  error : Option Dict := none
  freshId : String
  now : DateTime

def validatedEventName (type eventType : Option String) : Except StoreError String :=
  let name := strip ((orText eventType type).getD "")
  if name = "" then .error (.valueError "event_type is required")
  else if name ∈ ["tool.call.failed", "tool.call.error"] then
    .error (.valueError ("unsupported tool terminal event: " ++ name))
  else .ok name

def toolTranscriptEvents : List String :=
  ["tool.call.requested", "tool.call.completed", "tool.call.blocked"]

section Writers

variable (rt : Runtime)

def validateToolResultParent (db : SessionDb) (sessionId : String) (parentEventId : Option String)
    (payload : Dict) : Except StoreError Unit := do
  let parentId := parentEventId.getD ""
  require (parentId ≠ "") (.valueError "canonical tool result requires parent_event_id")
  match getEventById db parentId with
  | none => .error (.valueError "canonical tool result parent is not tool.call.requested")
  | some parent =>
    require (parent.eventType = "tool.call.requested")
      (.valueError "canonical tool result parent is not tool.call.requested")
    require (parent.sessionId = sessionId)
      (.valueError "canonical tool result parent belongs to another session")
    require ((parent.payload.get "call_id").pyEq (payload.get "call_id"))
      (.valueError "canonical tool result call_id does not match parent")
    require ((parent.payload.get "research_invocation_id").pyEq
        (payload.get "research_invocation_id"))
      (.valueError "canonical tool result research invocation does not match parent")
    require ((parent.payload.get "turn_scope_id").pyEq (payload.get "turn_scope_id"))
      (.valueError "canonical tool result turn_scope_id does not match parent")

/-- The id of an `llm.call` event that names its call and its scope. -/
def llmEventId (sessionId eventName : String) (payload : Dict) (traceId : Option String) :
    Option String :=
  let scopeId := (orText traceId (rt.textOr (payload.get "run_id"))).getD ""
  let callId := strip (rt.textOr (payload.get "llm_call_id"))
  if eventName ∈ ["llm.call.completed", "llm.call.failed"] ∧ callId ≠ "" ∧ scopeId ≠ "" then
    some (rt.uuid5Hex ("openminion:llm:v1:" ++ sessionId ++ ":" ++ scopeId ++ ":" ++ callId ++ ":" ++
      eventName))
  else none

def isCanonicalToolEvent (eventName : String) (payload : Dict) : Bool :=
  eventName = "tool.call.requested" ||
    (eventName ∈ toolTranscriptEvents && hasSchemaVersion payload)

def prepareEvent (db : SessionDb) (sessionId eventName : String) (payload : Dict)
    (parentEventId traceId : Option String) : Except StoreError (Dict × Option String) :=
  match llmEventId rt sessionId eventName payload traceId with
  | some eventId => .ok (payload, some eventId)
  | none =>
    if isCanonicalToolEvent eventName payload then do
      let (linkage, payload) ← canonicalToolPayload rt eventName payload
      if eventName = "tool.call.requested" then
        return (payload, some (stableToolEventId rt sessionId linkage "requested"))
      else
        validateToolResultParent db sessionId parentEventId payload
        return (payload, some (stableToolEventId rt sessionId linkage "terminal"))
    else .ok (payload, none)

/-- `int(value or 0)`; `none` for the errors that the caller swallows. -/
def tokenCount (value : Json) : Except StoreError (Option ℤ) :=
  match value with
  | .int n => .ok (some (max 0 n))
  | .bool b => .ok (some (if b then 1 else 0))
  | .float q => .ok (some (max 0 (q.num.tdiv q.den)))
  | .nan => .ok none
  | .inf _ => .error .overflowError
  | .null => .ok (some 0)
  | .str s => if s = "" then .ok (some 0) else .ok ((rt.parseInt s).map (max 0))
  | .list items => if items.isEmpty then .ok (some 0) else .ok none
  | .dict items => if items.isEmpty then .ok (some 0) else .ok none

def usageTokenCount (usage : Dict) (canonical legacy : String) : Except StoreError (Option ℤ) :=
  tokenCount rt (match usage.get canonical with
    | .null => usage.get legacy
    | value => value)

def addRunUsageDelta (db : SessionDb) (runId : String) (inputTokens outputTokens : ℤ) : SessionDb :=
  let add (r : RunRecordRow) : RunRecordRow := { r with
    inputTokens := some (r.inputTokens.getD 0 + max 0 inputTokens)
    outputTokens := some (r.outputTokens.getD 0 + max 0 outputTokens) }
  { db with runRecords := updateWhere (fun r => r.runId = runId) add db.runRecords }

/-- `_maybe_backfill_run_usage`. -/
def backfillRunUsage (db : SessionDb) (eventName : String) (payload : Dict) :
    Except StoreError SessionDb :=
  let runId := strip (rt.textOr (payload.get "run_id"))
  match payload.get "usage" with
  | .dict usage =>
    if eventName = "llm.call.completed" ∧ runId ≠ "" then do
      match ← usageTokenCount rt usage "input_tokens" "prompt_tokens" with
      | none => return db
      | some input =>
        match ← usageTokenCount rt usage "output_tokens" "completion_tokens" with
        | none => return db
        | some output => return addRunUsageDelta db runId input output
    else .ok db
  | _ => .ok db

def AppendEvent.payloadObj (a : AppendEvent) : Dict :=
  let payload := match a.status with
    | some status => if a.payload.has "status" then a.payload else Dict.set a.payload "status" (.str status)
    | none => a.payload
  match a.error with
  | some error => if payload.has "error" then payload else Dict.set payload "error" (.dict error)
  | none => payload

def AppendEvent.refsObj (a : AppendEvent) : Dict :=
  let refs := match a.artifactRefs with
    | some items => Dict.set a.refs "artifact_refs" (.list (items.map .str))
    | none => a.refs
  match a.memoryRefs with
  | some items => Dict.set refs "memory_refs" (.list (items.map .str))
  | none => refs

/-- `trace_obj.get(key, fallback)`. -/
def traceField (trace : Dict) (key : String) (fallback : Option String) : Option String :=
  if (trace.get key).truthy then some (rt.pyStr (trace.get key)) else fallback

def eventTaskId (db : SessionDb) (a : AppendEvent) (eventName : String) (payload : Dict) :
    Except StoreError (Option String) :=
  if eventName = "task_plan.step_started" then
    (rt.stepTaskId (eventsOf db a.sessionId) payload).map some
  else .ok (traceField rt a.trace "task_id" a.taskId)

/-- The event that `append_event` inserts. -/
def AppendEvent.event (a : AppendEvent) (eventName : String) (payload : Dict)
    (eventId taskId : Option String) : NewEvent :=
  let actorType := if strip a.actorType = "" then "system" else strip a.actorType
  let actorId := orText a.actorId a.agentId
  { eventId := (orText eventId (some a.freshId)).getD ""
    sessionId := a.sessionId
    timestamp := a.now
    eventType := eventName
    actorType := if actorId.getD "" ≠ "" ∧ actorType = "system" then "agent" else actorType
    actorId := actorId
    traceId := traceField rt a.trace "trace_id" a.traceId
    spanId := traceField rt a.trace "span_id" a.spanId
    taskId := taskId
    parentEventId := orText a.parentEventId a.parentId
    payload := payload
    refs := a.refsObj
    importance := a.importance
    redaction := if eventId.isSome && eventName ∈ toolTranscriptEvents then "bounded"
      else (orText a.redaction (some "none")).getD "" }

def eventExisted (db : SessionDb) (eventId : Option String) : Bool :=
  match orText eventId none with
  | some id => (getEventById db id).isSome
  | none => false

/-- The transaction of `append_event` for a prepared payload. -/
def writeEvent (db : SessionDb) (a : AppendEvent) (eventName : String) (payload : Dict)
    (eventId : Option String) : Except StoreError (SessionDb × String) := do
  let taskId ← eventTaskId rt db a eventName payload
  require (db.hasSession a.sessionId) (.valueError ("session not found: " ++ a.sessionId))
  let event := a.event rt eventName payload eventId taskId
  let db₁ ← insertSessionEvent db event
  let db₂ ← bif eventExisted db eventId then .ok db₁ else backfillRunUsage rt db₁ eventName payload
  return (db₂.touchSession a.sessionId a.now, event.eventId)

def appendEvent (db : SessionDb) (a : AppendEvent) : Except StoreError (SessionDb × String) := do
  let eventName ← validatedEventName a.type a.eventType
  let (payload, eventId) ← prepareEvent rt db a.sessionId eventName a.payloadObj
    (orText a.parentEventId a.parentId) (traceField rt a.trace "trace_id" a.traceId)
  writeEvent rt db a eventName payload eventId

/-- Arguments of `append_turn`; the ids are the `uuid4`s of the turn and of its event. -/
structure AppendTurn where
  sessionId : String
  role : String
  content : String
  attachments : List String := []
  metaJson : Dict := []
  turnId : String
  freshEventId : String
  now : DateTime

def actorTypeOf (role : String) : String := if role = "assistant" then "agent" else role

def AppendTurn.payload (t : AppendTurn) (role : String) : Dict :=
  [("turn_id", Json.str t.turnId), ("text", Json.str t.content),
    ("attachments", Json.list (t.attachments.map Json.str))] ++
  (if role = "assistant" then
    [("ui_hints", if t.metaJson.has "ui_hints" then t.metaJson.get "ui_hints" else Json.dict t.metaJson)]
  else [("channel_meta", Json.dict t.metaJson)]) ++
  (if (t.metaJson.get "is_error").truthy then [("is_error", Json.bool true)] else [])

def AppendTurn.event (db : SessionDb) (t : AppendTurn) (role : String) : NewEvent where
  eventId := t.freshEventId
  sessionId := t.sessionId
  timestamp := t.now
  eventType := "turn." ++ role
  actorType := actorTypeOf role
  actorId := if role = "assistant" then
      (db.getSession t.sessionId).bind fun s => orText s.activeAgentId none
    else none
  payload := t.payload role
  refs := if t.attachments.isEmpty then [] else [("artifact_refs", .list (t.attachments.map .str))]
  importance := 1
  redaction := "none"

/-- The insert into `turns`. -/
def insertTurn (db : SessionDb) (row : TurnRow) : Except StoreError SessionDb :=
  if db.hasSession row.sessionId && (lookup TurnRow.turnId row.turnId db.turns).isNone then
    .ok { db with turns := db.turns ++ [row] }
  else .error .integrityError

def appendTurn (db : SessionDb) (t : AppendTurn) : Except StoreError (SessionDb × String) := do
  let role := rt.lower (strip t.role)
  require (role ∈ ["user", "assistant", "system", "tool"])
    (.valueError ("unsupported role: " ++ t.role))
  let event := t.event db role
  let db₁ ← insertTurn db ⟨t.turnId, t.sessionId, t.now, role, t.content,
    .list (t.attachments.map .str), .dict t.metaJson⟩
  let db₂ ← insertSessionEvent db₁ event
  return (db₂.touchSession t.sessionId t.now, t.turnId)

end Writers

theorem seq_le_latestEventSeq {db : SessionDb} {e : SessionEventRow} (he : e ∈ db.sessionEvents) :
    e.seq ≤ latestEventSeq db e.sessionId := by
  have hmem : e.seq ∈
      (db.sessionEvents.filter fun r => r.sessionId = e.sessionId).map SessionEventRow.seq :=
    List.mem_map.mpr ⟨e, by simp [he], rfl⟩
  rw [latestEventSeq, List.max?_eq_some_max (List.ne_nil_of_mem hmem)]
  exact List.le_max_of_mem hmem

theorem insertSessionEvent_ok {db db' : SessionDb} {e : NewEvent}
    (h : insertSessionEvent db e = .ok db') :
    db' = db ∨ getEventById db e.eventId = none ∧ db.hasSession e.sessionId = true ∧
      parentExists db e = true ∧ db' = { db with
        sessionEvents := db.sessionEvents ++ [e.row (latestEventSeq db e.sessionId + 1)] } := by
  rw [insertSessionEvent] at h
  cases hl : getEventById db e.eventId with
  | some existing =>
    simp only [hl] at h
    split at h
    · exact .inl (Except.ok.inj h).symm
    · cases h
  | none =>
    simp only [hl] at h
    split at h
    · next hfk =>
      simp only [Bool.and_eq_true] at hfk
      obtain ⟨⟨hsession, hparent⟩, -⟩ := hfk
      exact .inr ⟨rfl, hsession, hparent, (Except.ok.inj h).symm⟩
    · cases h

/-- The usage backfill writes no table but `run_records`. -/
theorem backfillRunUsage_ok {rt : Runtime} {db db' : SessionDb} {eventName : String} {payload : Dict}
    (h : backfillRunUsage rt db eventName payload = .ok db') :
    ∃ runs, db' = { db with runRecords := runs } := by
  have hself : ∃ runs, db = { db with runRecords := runs } := ⟨db.runRecords, rfl⟩
  rw [backfillRunUsage] at h
  split at h
  · split at h
    · obtain ⟨input, -, h⟩ := bind_eq_ok.mp h
      cases input with
      | none =>
        obtain rfl := Except.ok.inj h
        exact hself
      | some input =>
        obtain ⟨output, -, h⟩ := bind_eq_ok.mp h
        cases output with
        | none =>
          obtain rfl := Except.ok.inj h
          exact hself
        | some output =>
          obtain rfl := Except.ok.inj h
          exact ⟨_, rfl⟩
    · obtain rfl := Except.ok.inj h
      exact hself
  · obtain rfl := Except.ok.inj h
    exact hself

/-- The transaction of `append_event` inserts one event with the prepared payload, or finds
it stored, and otherwise writes only `run_records` and the session's time stamp. -/
theorem writeEvent_ok {rt : Runtime} {db db' : SessionDb} {a : AppendEvent} {eventName : String}
    {payload : Dict} {eventId : Option String} {id : String}
    (h : writeEvent rt db a eventName payload eventId = .ok (db', id)) :
    ∃ taskId db₁ runs,
      insertSessionEvent db (a.event rt eventName payload eventId taskId) = .ok db₁ ∧
      db' = ({ db₁ with runRecords := runs }).touchSession a.sessionId a.now := by
  rw [writeEvent] at h
  simp only [bind_eq_ok] at h
  obtain ⟨taskId, -, _, -, db₁, hinsert, db₂, hbackfill, h⟩ := h
  obtain ⟨rfl, -⟩ := Prod.mk.inj (Except.ok.inj h)
  have hruns : ∃ runs, db₂ = { db₁ with runRecords := runs } := by
    cases hexisted : eventExisted db eventId with
    | true =>
      rw [hexisted] at hbackfill
      obtain rfl := Except.ok.inj hbackfill
      exact ⟨db₁.runRecords, rfl⟩
    | false =>
      rw [hexisted] at hbackfill
      exact backfillRunUsage_ok hbackfill
  obtain ⟨runs, rfl⟩ := hruns
  exact ⟨taskId, db₁, runs, hinsert, rfl⟩

theorem appendEvent_ok {rt : Runtime} {db db' : SessionDb} {a : AppendEvent} {id : String}
    (h : appendEvent rt db a = .ok (db', id)) :
    ∃ eventName payload eventId taskId db₁ runs,
      prepareEvent rt db a.sessionId eventName a.payloadObj (orText a.parentEventId a.parentId)
        (traceField rt a.trace "trace_id" a.traceId) = .ok (payload, eventId) ∧
      insertSessionEvent db (a.event rt eventName payload eventId taskId) = .ok db₁ ∧
      db' = ({ db₁ with runRecords := runs }).touchSession a.sessionId a.now := by
  rw [appendEvent] at h
  simp only [bind_eq_ok] at h
  obtain ⟨eventName, -, ⟨payload, eventId⟩, hprepare, h⟩ := h
  obtain ⟨taskId, db₁, runs, hinsert, hdb⟩ := writeEvent_ok h
  exact ⟨eventName, payload, eventId, taskId, db₁, runs, hprepare, hinsert, hdb⟩

theorem insertTurn_ok {db db' : SessionDb} {row : TurnRow} (h : insertTurn db row = .ok db') :
    db.hasSession row.sessionId = true ∧ (∀ r ∈ db.turns, r.turnId ≠ row.turnId) ∧
      db' = { db with turns := db.turns ++ [row] } := by
  rw [insertTurn] at h
  split at h
  · next hc =>
    obtain ⟨hsession, hnone⟩ := Bool.and_eq_true_iff.mp hc
    exact ⟨hsession, lookup_eq_none.mp (Option.isNone_iff_eq_none.mp hnone), (Except.ok.inj h).symm⟩
  · cases h

theorem appendTurn_ok {rt : Runtime} {db db' : SessionDb} {t : AppendTurn} {id : String}
    (h : appendTurn rt db t = .ok (db', id)) :
    ∃ role row db₁, role ∈ ["user", "assistant", "system", "tool"] ∧ row.sessionId = t.sessionId ∧
      db.hasSession t.sessionId = true ∧
      insertSessionEvent { db with turns := db.turns ++ [row] } (t.event db role) = .ok db₁ ∧
      db' = db₁.touchSession t.sessionId t.now := by
  rw [appendTurn] at h
  simp only [bind_eq_ok, require_eq_ok, decide_eq_true_eq] at h
  obtain ⟨_, hrole, db₁, hturn, db₂, hinsert, h⟩ := h
  obtain ⟨rfl, -⟩ := Prod.mk.inj (Except.ok.inj h)
  obtain ⟨hsession, -, rfl⟩ := insertTurn_ok hturn
  exact ⟨_, _, db₂, hrole, rfl, hsession, hinsert, rfl⟩

end OpenMinion.SessionEventWrites
