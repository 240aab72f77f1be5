import OpenMinion.ReadPrograms
import OpenMinion.SessionStateWrites

/-!
# Session slices

The base slice of a session, as the queries that `_get_slice_base` sends to the store, and the reads of
`create_snapshot` and `update_derived_views`. Other threads may commit between them.
-/
namespace OpenMinion.SessionSlices
open IsoTimestamps JsonValues KeyedTables PythonText ReadPrograms SessionEventWrites SessionStateWrites SessionTables

inductive SummaryVariant where
  | short
  | long
  | auto
  deriving DecidableEq

/-- Limits as `_normalize_limits` leaves them. -/
structure SliceLimits where
  maxTurns : ℕ := 8
  maxToolEvents : ℕ := 12
  archiveRefLimit : ℕ := 3
  summaryVariant : SummaryVariant := .auto
  includeOpenTasks : Bool := true
  includeActiveState : Bool := true
  deriving DecidableEq

structure RecentTurn where
  turnId : Json
  eventId : String
  seq : ℕ
  timestamp : DateTime
  role : String
  text : Json
  attachments : List Json
  channelMeta : Dict
  uiHints : Dict
  isError : Bool
  deriving DecidableEq

structure RecentToolEvent where
  eventId : String
  sessionId : String
  seq : ℕ
  timestamp : DateTime
  eventType : String
  traceId : Option String
  toolName : String
  callId : String
  status : String
  errorCode : String
  excerpt : String
  artifactRefs : List String
  deriving DecidableEq

structure BaseSlice where
  sessionId : String
  sliceVersion : String
  summary : String
  conversationSummary : String
  activeTaskPlan : Json
  continuation : Json
  pendingTrailerFeedback : Json
  totalTurnCount : ℕ
  recentTurns : List RecentTurn
  openTasks : List OpenTask
  activeState : Dict
  recentToolEvents : List RecentToolEvent
  lastEventSeq : ℕ
  activeAgentId : Option String
  activeProfileVersion : Option String
  deriving DecidableEq

structure SliceEnv where
  rt : Runtime
  /-- `json.dumps`. -/
  dumps : Json → String
  /-- `json.dumps` with sorted keys. -/
  dumpsSorted : Json → String
  /-- The plan that the `task_plan.%` events of a session leave active. -/
  taskPlan : List SessionEventRow → Json
  /-- `_stable_hash` of the payload made of a slice that has no version yet, its purpose and
  its limits. -/
  stableHash : BaseSlice → String → SliceLimits → String

/-- The events of these types, `ORDER BY seq`. -/
def eventsOfTypes (db : SessionDb) (sessionId : String) (types : List String) : List SessionEventRow :=
  (eventsOf db sessionId).filter fun e => e.eventType ∈ types

/-- The last rows of a query: `ORDER BY seq DESC LIMIT n`, put in ascending order. -/
def lastRows (rows : List SessionEventRow) (limit : ℕ) : List SessionEventRow :=
  rows.drop (rows.length - max 1 limit)

/-- `value if isinstance(value, dict) else {}`. -/
def dictOr : Json → Dict
  | .dict items => items
  | _ => []

def listOr : Json → List Json
  | .list items => items
  | _ => []

def recentTurn (e : SessionEventRow) : RecentTurn where
  turnId := e.payload.get "turn_id"
  eventId := e.eventId
  seq := e.seq
  timestamp := e.timestamp
  role := String.ofList (e.eventType.toList.drop "turn.".length)
  text := e.payload.get "text"
  attachments := listOr (e.payload.get "attachments")
  channelMeta := dictOr (e.payload.get "channel_meta")
  uiHints := dictOr (e.payload.get "ui_hints")
  isError := (e.payload.get "is_error").truthy || ((dictOr (e.payload.get "ui_hints")).get "is_error").truthy ||
    ((dictOr (e.payload.get "channel_meta")).get "is_error").truthy

def getRecentTurns (db : SessionDb) (sessionId : String) (limit : ℕ) : List RecentTurn :=
  (lastRows (eventsOfTypes db sessionId ["turn.system", "turn.user", "turn.assistant", "turn.tool"]) limit).map
    recentTurn

def getTotalTurnCount (db : SessionDb) (sessionId : String) : ℕ :=
  (eventsOfTypes db sessionId ["turn.user", "turn.assistant"]).length

/-- `get_latest_continuation_projection`. -/
def getContinuation (db : SessionDb) (sessionId : String) : Json :=
  match (eventsOfTypes db sessionId ["session.continuation.applied"]).getLast? with
  | some e => .dict e.payload
  | none => .null

def getPendingTrailerFeedback (db : SessionDb) (sessionId : String) : Json :=
  match (eventsOfTypes db sessionId ["trailer.feedback_pending", "trailer.feedback_surfaced"]).getLast? with
  | some e => if e.eventType = "trailer.feedback_pending" then .dict e.payload else .null
  | none => .null

def getActiveTaskPlan (env : SliceEnv) (db : SessionDb) (sessionId : String) : Json :=
  env.taskPlan ((eventsOf db sessionId).filter fun e => likePrefix "task_plan." e.eventType)

/-- `text.split()`. -/
def pyWords (text : String) : List String :=
  ((text.toList.splitOnP isSpace).filter fun cs => !cs.isEmpty).map String.ofList

structure PendingAssistant where
  turnIndex : ℕ
  userPreview : String
  tokens : ℕ
  toolFamilies : List String
  tail : String

structure ConversationState where
  records : List String := []
  currentUser : String := ""
  toolFamilies : List String := []
  pending : List PendingAssistant := []

def conversationRecord (env : SliceEnv) (routeType : String) (item : PendingAssistant) : String :=
  let families := item.toolFamilies.dedup.insertionSort fun a b => a ≤ b
  "turn_index=" ++ toString item.turnIndex ++ "; user_preview=" ++ env.dumps (.str item.userPreview) ++
    "; route_type=" ++ env.dumps (.str routeType) ++ "; assistant_response_tokens=" ++ toString item.tokens ++
    "; tool_families_used=" ++ env.dumps (.list (families.map .str)) ++
    "; assistant_tail_preview=" ++ env.dumps (.str item.tail)

def emitPending (env : SliceEnv) (routeType : String) (s : ConversationState) : ConversationState :=
  { s with
    records := s.records ++ s.pending.map (conversationRecord env routeType)
    pending := [] }

def firstText (rt : Runtime) (values : List Json) : String :=
  match values.find? Json.truthy with
  | some v => rt.pyStr v
  | none => ""

def toolFamily (toolName : String) : String :=
  String.ofList ((strip toolName).toList.takeWhile (· ≠ '.'))

/-- One event of the loop of `get_conversation_summary`. -/
def conversationEvent (env : SliceEnv) (s : ConversationState) (e : SessionEventRow) : ConversationState :=
  if e.eventType = "turn.user" then
    { emitPending env "unknown" s with currentUser := env.rt.textOr (e.payload.get "text"), toolFamilies := [] }
  else if "tool.".toList.isPrefixOf e.eventType.toList then
    let family := toolFamily (firstText env.rt [e.payload.get "tool_name", e.payload.get "tool"])
    if family = "" then s else { s with toolFamilies := s.toolFamilies ++ [family] }
  else if e.eventType = "turn.assistant" then
    let text := env.rt.textOr (e.payload.get "text")
    let item : PendingAssistant :=
      { turnIndex := s.records.length + s.pending.length + 1
        userPreview := " ".intercalate ((pyWords s.currentUser).take 10)
        tokens := max 1 (text.length / 4)
        toolFamilies := s.toolFamilies
        tail := " ".intercalate ((pyWords text).drop ((pyWords text).length - 15)) }
    { s with pending := s.pending ++ [item], toolFamilies := [] }
  else if e.eventType = "turn.outcome" then
    let route := firstText env.rt [e.payload.get "mode_name", e.payload.get "status"]
    emitPending env (if route = "" then "unknown" else route) s
  else s

/-- `get_conversation_summary` with its default limit. -/
def getConversationSummary (env : SliceEnv) (db : SessionDb) (sessionId : String) : String :=
  let rows := (eventsOf db sessionId).filter fun e =>
    e.eventType ∈ ["turn.user", "turn.assistant", "turn.outcome"] || likePrefix "tool." e.eventType
  let records := (emitPending env "unknown" (rows.foldl (conversationEvent env) {})).records
  "\n".intercalate (records.drop (records.length - 24))

def shownFields (rt : Runtime) (value : Json) (fields : List String) : String :=
  match value with
  | .dict items => strip (firstText rt (fields.map (Dict.get items)))
  | _ => ""

/-- The text of `payload["error"]`. -/
def errorText (rt : Runtime) (value : Json) : String :=
  match value with
  | .dict _ => shownFields rt value ["message", "code"]
  | v => strip (rt.textOr v)

/-- `text[:240]`. -/
def excerptText (text : String) : String := String.ofList (text.toList.take 240)

def eventExcerpt (env : SliceEnv) (e : SessionEventRow) : String :=
  let shown := strip (firstText env.rt [e.payload.get "summary", e.payload.get "message",
    .str (shownFields env.rt (e.payload.get "output") ["summary", "message"]),
    .str (errorText env.rt (e.payload.get "error"))])
  if shown ≠ "" then shown
  else if e.payload.isEmpty then (if e.eventType = "" then "tool" else e.eventType)
  else excerptText (env.dumpsSorted (.dict e.payload))

def toRecentToolEvent (env : SliceEnv) (e : SessionEventRow) (parent : Option SessionEventRow) : RecentToolEvent :=
  let parentPayload := (parent.map SessionEventRow.payload).getD []
  let name := strip (firstText env.rt [e.payload.get "tool_name", e.payload.get "tool",
    e.payload.get "canonical_name", parentPayload.get "canonical_name", .str e.eventType, .str "tool"])
  { eventId := e.eventId
    sessionId := e.sessionId
    seq := e.seq
    timestamp := e.timestamp
    eventType := e.eventType
    traceId := e.traceId
    toolName := if name = "" then "tool" else name
    callId := firstText env.rt [e.payload.get "call_id", parentPayload.get "call_id"]
    status := env.rt.textOr (e.payload.get "status")
    errorCode := shownFields env.rt (e.payload.get "error") ["code"]
    excerpt := excerptText (eventExcerpt env e)
    artifactRefs := (listOr (e.refs.get "artifact_refs")).map env.rt.pyStr }

/-- The rows of `get_recent_tool_events`. -/
def recentToolRows (db : SessionDb) (sessionId : String) (limit : ℕ) : List SessionEventRow :=
  lastRows ((eventsOf db sessionId).filter fun e =>
    likePrefix "tool.call." e.eventType || likePrefix "tool." e.eventType) limit

/-- `get_summary`: the summary row, or else the latest snapshot. -/
def readSummary (sessionId : String) (long : Bool) : ReadProgram SessionDb String :=
  (ReadProgram.query fun db => lookup SessionSummaryRow.sessionId sessionId db.sessionSummaries).bind fun row =>
    match row with
    | some row => .done (if long then (orText row.summaryLong (some row.summaryShort)).getD "" else row.summaryShort)
    | none => ReadProgram.query fun db =>
      match latestSnapshot db sessionId with
      | some s => if long then (orText s.summaryLong (some s.summaryShort)).getD "" else s.summaryShort
      | none => ""

/-- `get_active_state`: the latest snapshot, or else the latest working state. -/
def readActiveState (sessionId : String) : ReadProgram SessionDb Dict :=
  (ReadProgram.query fun db => latestSnapshot db sessionId).bind fun snapshot =>
    match snapshot with
    | some s => .done s.state
    | none => ReadProgram.query fun db => stateOf (getLatestWorkingState db sessionId)

/-- `get_recent_tool_events`; the parent of each event is looked up on its own. -/
def readToolEvents (env : SliceEnv) (sessionId : String) (limit : ℕ) : ReadProgram SessionDb (List RecentToolEvent) :=
  (ReadProgram.query fun db => recentToolRows db sessionId limit).bind fun rows =>
    ReadProgram.mapList (fun e =>
      if e.parentEventId.getD "" = "" then .done (toRecentToolEvent env e none)
      else ReadProgram.query fun db => toRecentToolEvent env e (getEventById db (e.parentEventId.getD ""))) rows

def taskAnchorPurposes : List String := ["act", "entry", "judge", "summarize", "validate"]

def turnRole (rt : Runtime) (turn : RecentTurn) : String :=
  match rt.lower (strip turn.role) with
  | "inbound" => "user"
  | "outbound" => "assistant"
  | role => role

def turnIdentity (rt : Runtime) (turn : RecentTurn) : String :=
  let turnId := strip (rt.textOr turn.turnId)
  if turnId ≠ "" then "turn_id:" ++ turnId
  else if strip turn.eventId ≠ "" then "event_id:" ++ strip turn.eventId
  else "content:" ++ rt.textOr turn.text

def maxTaskAnchorScanTurns : ℕ := 1000

/-- The loop of `_with_task_anchor_turn`; the limit grows with every round, so a round for
each of its values is enough. -/
def anchorScan (rt : Runtime) (sessionId : String) (recent : List RecentTurn) :
    ℕ → ℕ → ReadProgram SessionDb (List RecentTurn)
  | 0, _ => .done recent
  | rounds + 1, limit =>
    (ReadProgram.query fun db => getRecentTurns db sessionId limit).bind fun scanned =>
      match scanned.find? fun turn => turnRole rt turn = "user" with
      | some anchor =>
        if turnIdentity rt anchor ∉ recent.map (turnIdentity rt) then .done (anchor :: recent)
        else if scanned.length < limit ∨ maxTaskAnchorScanTurns ≤ limit then .done recent
        else anchorScan rt sessionId recent rounds (min (limit * 2) maxTaskAnchorScanTurns)
      | none =>
        if scanned.length < limit ∨ maxTaskAnchorScanTurns ≤ limit then .done recent
        else anchorScan rt sessionId recent rounds (min (limit * 2) maxTaskAnchorScanTurns)

def withTaskAnchorTurn (rt : Runtime) (sessionId purpose : String) (recent : List RecentTurn) (totalTurnCount : ℕ) :
    ReadProgram SessionDb (List RecentTurn) :=
  if rt.lower (strip purpose) ∉ taskAnchorPurposes then .done recent
  else anchorScan rt sessionId recent maxTaskAnchorScanTurns
    (min (max (recent.length * 2) (max totalTurnCount 8)) maxTaskAnchorScanTurns)

structure SliceKey where
  sessionId : String
  purpose : String
  limits : SliceLimits
  lastEventSeq : ℕ
  deriving DecidableEq

structure SliceSession where
  activeAgentId : Option String
  activeProfileVersion : Option String
  deriving DecidableEq

def sliceSession (db : SessionDb) (sessionId : String) : Option SliceSession :=
  (db.getSession sessionId).map fun row => ⟨row.activeAgentId, row.activeProfileVersion⟩

/-- The reads of `_get_slice_base` after the cache lookup missed. -/
def sliceReads (env : SliceEnv) (key : SliceKey) (session : Option SliceSession) : ReadProgram SessionDb BaseSlice :=
  let sid := key.sessionId
  (readSummary sid (key.limits.summaryVariant ≠ .short)).bind fun summary =>
  (ReadProgram.query fun db => getRecentTurns db sid key.limits.maxTurns).bind fun recent =>
  (ReadProgram.query fun db => getTotalTurnCount db sid).bind fun total =>
  (withTaskAnchorTurn env.rt sid key.purpose recent total).bind fun turns =>
  (ReadProgram.query fun db => getConversationSummary env db sid).bind fun conversation =>
  (ReadProgram.query fun db => getActiveTaskPlan env db sid).bind fun plan =>
  (ReadProgram.query fun db => getContinuation db sid).bind fun continuation =>
  (ReadProgram.query fun db => getPendingTrailerFeedback db sid).bind fun feedback =>
  (if key.limits.includeOpenTasks then
    ReadProgram.query fun db => deriveOpenTasks env.rt db sid (some key.lastEventSeq)
  else .done []).bind fun openTasks =>
  (if key.limits.includeActiveState then readActiveState sid else .done []).bind fun activeState =>
  (readToolEvents env sid key.limits.maxToolEvents).map fun toolEvents =>
    let slice : BaseSlice :=
      { sessionId := sid
        sliceVersion := ""
        summary := summary
        conversationSummary := conversation
        activeTaskPlan := plan
        continuation := continuation
        pendingTrailerFeedback := feedback
        totalTurnCount := total
        recentTurns := turns
        openTasks := openTasks
        activeState := activeState
        recentToolEvents := toolEvents
        lastEventSeq := key.lastEventSeq
        activeAgentId := session.bind SliceSession.activeAgentId
        activeProfileVersion := session.bind SliceSession.activeProfileVersion }
    { slice with sliceVersion := env.stableHash slice key.purpose key.limits }

def sliceKey (db : SessionDb) (sessionId purpose : String) (limits : SliceLimits) : SliceKey :=
  ⟨sessionId, purpose, limits, latestEventSeq db sessionId⟩

def computeSlice (env : SliceEnv) (db : SessionDb) (key : SliceKey) : BaseSlice :=
  (sliceReads env key (sliceSession db key.sessionId)).eval db

/-- The reads of `create_snapshot`; `none` when there is no session. -/
def snapshotReads (rt : Runtime) (c : CreateSnapshot) : ReadProgram SessionDb (Option SessionSnapshotRow) :=
  (ReadProgram.query fun db => db.hasSession c.sessionId).bind fun hasSession =>
  if hasSession then
    (ReadProgram.query fun db => latestEventSeq db c.sessionId).bind fun latestSeq =>
    (readSummary c.sessionId false).bind fun summaryShort =>
    (readSummary c.sessionId true).bind fun summaryLong =>
    (ReadProgram.query fun db => getLatestWorkingState db c.sessionId).bind fun workingState =>
    ReadProgram.query fun db =>
      let boundary := snapshotBoundary latestSeq c.seqUpto
      some
        { snapshotId := c.snapshotId
          sessionId := c.sessionId
          seqUpto := boundary
          summaryShort := summaryShort
          summaryLong := some summaryLong
          state := stateOf workingState
          openTasks := .list ((deriveOpenTasks rt db c.sessionId (some boundary)).map OpenTask.json)
          createdAt := c.now }
  else .done none

/-- The reads of `update_derived_views`; `none` when the session has no events. -/
def derivedViewReads (v : UpdateDerivedViews) : ReadProgram SessionDb (Option SessionSnapshotRow) :=
  (ReadProgram.query fun db => eventsOf db v.sessionId).bind fun rows =>
  match rows.getLast? with
  | none => .done none
  | some last => (readSummary v.sessionId false).map fun summaryShort =>
    some
      { snapshotId := v.snapshotId
        sessionId := v.sessionId
        seqUpto := last.seq
        summaryShort := summaryShort
        summaryLong := none
        state := []
        openTasks := .list (rows.foldl derivedTaskEvent [])
        createdAt := v.now }

end OpenMinion.SessionSlices
