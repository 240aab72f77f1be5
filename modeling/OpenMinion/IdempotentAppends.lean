import OpenMinion.PythonValues
import OpenMinion.SessionEventWrites

/-!
# Events that are appended twice

`append_event` with any Python value as payload. When the call of a derived id is repeated, the payload and the refs in
memory are compared with what is read back from the row.
-/
namespace OpenMinion.IdempotentAppends
open DecimalTexts IsoTimestamps JsonRows JsonValues KeyedTables PythonText PythonValues SessionEventWrites SessionTables

/-- The platform, with `str(value)` of a Python value that is not a string. -/
structure PyRuntime extends Runtime where
  strOf : PyValue → String

inductive PyError where
  | store (error : StoreError)
  /-- `json.dumps` raises for keys that cannot be sorted. -/
  | typeError
  deriving DecidableEq

def lift {α : Type} (r : Except StoreError α) : Except PyError α := r.mapError .store

structure PyDict where
  items : PyItems := []
  wellFormed : WellFormed (.dict items) := by exact ⟨List.nodup_nil, trivial⟩

namespace PyItems

/-- `d.get(key)`. -/
def get (items : PyItems) (key : String) : PyValue := ((items.find? (·.1 == .str key)).map (·.2)).getD .none

/-- `key in d`. -/
def has (items : PyItems) (key : String) : Bool := items.any (·.1 == .str key)

/-- `d[key] = value`. -/
def set (items : PyItems) (key : String) (value : PyValue) : PyItems :=
  if has items key then items.map fun item => if item.1 == .str key then (.str key, value) else item
  else items ++ [(.str key, value)]

end PyItems

/-- `bool(value)`. -/
def truthy : PyValue → Bool
  | .none => false
  | .bool b => b
  | .int n => n != 0
  | .float q => q != 0
  | .nan _ | .inf _ => true
  | .str s => s != ""
  | .list items | .tuple items => !items.isEmpty
  | .dict items => !items.isEmpty

/-- `str(key)`. -/
def keyStr : PyKey → String
  | .none => "None"
  | .bool b => if b then "True" else "False"
  | .nan => "nan"
  | .inf negative => if negative then "-inf" else "inf"
  | key => key.text

section Canonical

variable (rt : PyRuntime)

/-- `str(value or "")`. -/
def textOr (v : PyValue) : String :=
  if truthy v then
    match v with
    | .str s => s
    | v => rt.strOf v
  else ""

/-- `_bounded_tool_value`; the first argument is the depth that remains. -/
def boundedToolValue : ℕ → PyValue → PyValue
  | 0, _ => .str "[TRUNCATED]"
  | d + 1, .dict items =>
    let bounded : PyItems := (items.take 50).foldl (fun bounded item =>
      PyItems.set bounded (keyStr item.1) (if sensitiveKeyParts.any fun part => part.toList <:+: (rt.lower (keyStr item.1)).toList then
        .str "[REDACTED]" else boundedToolValue d item.2)) []
    .dict (if items.length > 50 then PyItems.set bounded "_truncated_fields" (.int (items.length - 50)) else bounded)
  | d + 1, .list items | d + 1, .tuple items =>
    let bounded := (items.take 50).map (boundedToolValue d)
    .list (if items.length > 50 then
      bounded ++ [PyValue.str ("[TRUNCATED " ++ toString (items.length - 50) ++ " ITEMS]")] else bounded)
  | _ + 1, .str s =>
    let redacted := rt.redactSensitiveText s
    if redacted.length > 4096 then
      .str (String.ofList (redacted.toList.take 4096) ++ "[TRUNCATED " ++ toString (redacted.length - 4096) ++ " CHARS]")
    else .str redacted
  | _ + 1, v => v

def requiredText (payload : PyItems) (field : String) : Except StoreError String :=
  let value := strip (textOr rt (PyItems.get payload field))
  if value = "" then .error (.valueError ("canonical tool event requires " ++ field)) else .ok value

/-- `payload.get("schema_version") == 1`. -/
def hasSchemaVersion (payload : PyItems) : Bool := (PyItems.get payload "schema_version").number = some 1

def researchInvocation (payload : PyItems) : Except StoreError (Option String) :=
  if truthy (PyItems.get payload "research_invocation_id") then (requiredText rt payload "research_invocation_id").map some
  else .ok none

def toolLinkage (payload : PyItems) : Except StoreError ToolLinkage := do
  require (hasSchemaVersion payload) (.valueError "canonical tool event requires schema_version=1")
  let turnScopeId ← requiredText rt payload "turn_scope_id"
  let callId ← requiredText rt payload "call_id"
  let invocation ← researchInvocation rt payload
  return ⟨turnScopeId, callId, invocation⟩

def linkageItems (l : ToolLinkage) : PyItems :=
  [(.str "schema_version", .int 1), (.str "turn_scope_id", .str l.turnScopeId), (.str "call_id", .str l.callId)] ++
    (match l.researchInvocationId with
      | some rid => [(.str "research_invocation_id", .str rid)]
      | none => [])

def isNonBlankText : PyValue → Bool
  | .str s => strip s ≠ ""
  | _ => false

def argumentsField (payload : PyItems) : Except StoreError PyValue :=
  match PyItems.get payload "sanitized_normalized_arguments" with
  | .dict items => .ok (.dict items)
  | _ => .error (.valueError "tool.call.requested requires sanitized_normalized_arguments object")

def batchIndexField (payload : PyItems) : Except StoreError ℤ :=
  match PyItems.get payload "batch_index" with
  | .int n => .ok n
  | _ => .error (.valueError "tool.call.requested requires integer batch_index")

def dependsOnField (payload : PyItems) : Except StoreError (List PyValue) :=
  let invalid := StoreError.valueError "tool.call.requested requires depends_on list[str]"
  match PyItems.get payload "depends_on" with
  | .list items => if items.all isNonBlankText then .ok items else .error invalid
  | _ => .error invalid

def requestedFields (payload : PyItems) : Except StoreError PyItems := do
  let canonicalName ← requiredText rt payload "canonical_name"
  let arguments ← argumentsField payload
  let batchIndex ← batchIndexField payload
  let dependsOn ← dependsOnField payload
  return [(.str "canonical_name", .str canonicalName), (.str "sanitized_normalized_arguments", boundedToolValue rt 6 arguments),
    (.str "batch_index", .int (max 0 batchIndex)), (.str "depends_on", .list dependsOn)]

def terminalFields (eventType : String) (payload : PyItems) : Except StoreError PyItems := do
  let duplicated := callOwnedFields.filter (PyItems.has payload)
  require duplicated.isEmpty (.valueError ("canonical tool result must not contain call-owned fields: "
    ++ ", ".intercalate duplicated))
  let status := rt.lower (← requiredText rt payload "status")
  if eventType = "tool.call.completed" then
    require (status = "success") (.valueError "tool.call.completed requires status=success")
    require (!PyItems.has payload "error") (.valueError "tool.call.completed must not contain error")
    return [(.str "status", .str "success"), (.str "output", boundedToolValue rt 6 (PyItems.get payload "output"))]
  else
    require (status ∈ ["error", "blocked", "timeout"])
      (.valueError "tool.call.blocked requires status=error, blocked, or timeout")
    match PyItems.get payload "error" with
    | .dict items => return [(.str "status", .str status), (.str "error", boundedToolValue rt 6 (.dict items))]
    | _ => .error (.valueError "tool.call.blocked requires typed error object")

def phaseFields (eventType : String) (payload : PyItems) : Except StoreError PyItems :=
  if eventType = "tool.call.requested" then requestedFields rt payload else terminalFields rt eventType payload

def canonicalToolPayload (eventType : String) (payload : PyItems) : Except StoreError (ToolLinkage × PyItems) := do
  let linkage ← toolLinkage rt payload
  let rest ← phaseFields rt eventType payload
  return (linkage, linkageItems linkage ++ rest)

/-- The id of an `llm.call` event that names its call and its scope. -/
def llmEventId (sessionId eventName : String) (payload : PyItems) (traceId : Option String) : Option String :=
  let scopeId := (orText traceId (textOr rt (PyItems.get payload "run_id"))).getD ""
  let callId := strip (textOr rt (PyItems.get payload "llm_call_id"))
  if eventName ∈ ["llm.call.completed", "llm.call.failed"] ∧ callId ≠ "" ∧ scopeId ≠ "" then
    some (rt.uuid5Hex ("openminion:llm:v1:" ++ sessionId ++ ":" ++ scopeId ++ ":" ++ callId ++ ":" ++ eventName))
  else none

def isCanonicalToolEvent (eventName : String) (payload : PyItems) : Bool :=
  eventName = "tool.call.requested" || (eventName ∈ toolTranscriptEvents && hasSchemaVersion payload)

/-- `_prepare_event`; the linkage is all that the check of the parent reads of the payload. -/
def prepareEvent (db : SessionDb) (sessionId eventName : String) (payload : PyItems) (parentEventId traceId : Option String) :
    Except StoreError (PyItems × Option String) :=
  match llmEventId rt sessionId eventName payload traceId with
  | some eventId => .ok (payload, some eventId)
  | none =>
    if isCanonicalToolEvent eventName payload then do
      let (linkage, payload) ← canonicalToolPayload rt eventName payload
      if eventName = "tool.call.requested" then
        return (payload, some (stableToolEventId rt.toRuntime sessionId linkage "requested"))
      else
        validateToolResultParent db sessionId parentEventId linkage.fields
        return (payload, some (stableToolEventId rt.toRuntime sessionId linkage "terminal"))
    else .ok (payload, none)

end Canonical

/-- Arguments of `append_event`; `freshId` is the `uuid4` drawn for an event without a derived id. -/
structure AppendPyEvent where
  sessionId : String
  type : Option String := none
  payload : PyDict := {}
  eventType : Option String := none
  actorType : String := "system"
  actorId : Option String := none
  trace : Dict := []
  refs : PyDict := {}
  parentEventId : Option String := none
  importance : ℤ := 1
  redaction : Option String := none
  agentId : Option String := none
  traceId : Option String := none
  spanId : Option String := none
  taskId : Option String := none
  parentId : Option String := none
  artifactRefs : Option (List String) := none
  memoryRefs : Option (List String) := none
  status : Option String := none
  error : Option PyDict := none
  freshId : String
  now : DateTime

namespace AppendPyEvent

variable (a : AppendPyEvent)

def withStatus : PyItems :=
  match a.status with
  | some status => if PyItems.has a.payload.items "status" then a.payload.items else PyItems.set a.payload.items "status" (.str status)
  | none => a.payload.items

def payloadObj : PyItems :=
  match a.error with
  | some error => if PyItems.has a.withStatus "error" then a.withStatus else PyItems.set a.withStatus "error" (.dict error.items)
  | none => a.withStatus

def withArtifacts : PyItems :=
  match a.artifactRefs with
  | some items => PyItems.set a.refs.items "artifact_refs" (.list (items.map .str))
  | none => a.refs.items

def refsObj : PyItems :=
  match a.memoryRefs with
  | some items => PyItems.set a.withArtifacts "memory_refs" (.list (items.map .str))
  | none => a.withArtifacts

def columns : AppendEvent where
  sessionId := a.sessionId
  type := a.type
  eventType := a.eventType
  actorType := a.actorType
  actorId := a.actorId
  trace := a.trace
  parentEventId := a.parentEventId
  importance := a.importance
  redaction := a.redaction
  agentId := a.agentId
  traceId := a.traceId
  spanId := a.spanId
  taskId := a.taskId
  parentId := a.parentId
  freshId := a.freshId
  now := a.now

end AppendPyEvent

def readItems (items : PyItems) : Dict := loadItems (readBackItems items)

/-- The stored event agrees with the new one in all columns but its payload, refs, time and sequence number. -/
def columnsAgree (e : NewEvent) (existing : SessionEventRow) : Bool :=
  existing.sessionId = e.sessionId && existing.eventType = e.eventType && existing.actorType = e.actorType &&
  existing.actorId = e.actorId && existing.traceId = e.traceId && existing.spanId = e.spanId && existing.taskId = e.taskId &&
  existing.parentEventId = e.parentEventId && existing.importance = max 0 (min e.importance 3) && existing.redaction = e.redaction

/-- `observed == expected`. -/
def observedExpected (e : NewEvent) (payload refs : PyItems) (existing : SessionEventRow) : Bool :=
  columnsAgree e existing && sameAs (.dict existing.payload) (.dict payload) && sameAs (.dict existing.refs) (.dict refs)

/-- `insert_session_event_tx` for a payload and refs in memory; `e` has them as they are read back. -/
def insertPyEvent (db : SessionDb) (e : NewEvent) (payload refs : PyItems) : Except PyError SessionDb :=
  match getEventById db e.eventId with
  | some existing =>
    if observedExpected e payload refs existing then .ok db
    else .error (.store (.valueError ("session event idempotency conflict: " ++ e.eventId)))
  | none =>
    if dumpable (.dict payload) && dumpable (.dict refs) then lift (insertSessionEvent db e) else .error .typeError

section Append

variable (rt : PyRuntime)

/-- What `_maybe_backfill_run_usage` reads of a payload. -/
def usagePayload (payload : PyItems) : Dict :=
  [("run_id", .str (textOr rt (PyItems.get payload "run_id"))), ("usage", readBack (PyItems.get payload "usage"))]

def AppendPyEvent.event (a : AppendPyEvent) (eventName : String) (payload : PyItems) (eventId taskId : Option String) : NewEvent :=
  { a.columns.event rt.toRuntime eventName [] eventId taskId with payload := readItems payload, refs := readItems a.refsObj }

/-- `SessionEventWriter.append_event`. -/
def appendPyEvent (db : SessionDb) (a : AppendPyEvent) : Except PyError (SessionDb × String) := do
  let eventName ← lift (validatedEventName a.type a.eventType)
  let (payload, eventId) ← lift (prepareEvent rt db a.sessionId eventName a.payloadObj
    (orText a.parentEventId a.parentId) (traceField rt.toRuntime a.trace "trace_id" a.traceId))
  let taskId ← lift (eventTaskId rt.toRuntime db a.columns eventName (readItems payload))
  lift (require (db.hasSession a.sessionId) (.valueError ("session not found: " ++ a.sessionId)))
  let event := a.event rt eventName payload eventId taskId
  let db₁ ← insertPyEvent db event payload a.refsObj
  let db₂ ← bif eventExisted db eventId then .ok db₁
    else lift (backfillRunUsage rt.toRuntime db₁ eventName (usagePayload rt payload))
  return (db₂.touchSession a.sessionId a.now, event.eventId)

end Append

theorem wellFormedItems_iff {items : PyItems} : WellFormedItems items ↔ ∀ item ∈ items, WellFormed item.2 := by
  induction items with
  | nil => simp [WellFormedItems]
  | cons item items ih => rw [WellFormedItems, ih, List.forall_mem_cons]

theorem wellFormedList_iff {items : List PyValue} : WellFormedList items ↔ ∀ item ∈ items, WellFormed item := by
  induction items with
  | nil => simp [WellFormedList]
  | cons item items ih => rw [WellFormedList, ih, List.forall_mem_cons]

theorem wellFormed_set {items : PyItems} (h : WellFormed (.dict items)) (key : String) {value : PyValue} (hvalue : WellFormed value) :
    WellFormed (.dict (PyItems.set items key value)) := by
  obtain ⟨hnodup, hitems⟩ := h
  rw [wellFormedItems_iff] at hitems
  rw [PyItems.set]
  split
  · constructor
    · rw [List.map_map]
      have hkeys : ((·.1) ∘ fun item : PyKey × PyValue => if item.1 == .str key then (.str key, value) else item) = (·.1) := by
        funext item
        by_cases hkey : item.1 = .str key
        · simp [hkey]
        · simp [hkey]
      rwa [hkeys]
    · rw [wellFormedItems_iff]
      intro item hmem
      obtain ⟨old, hold, rfl⟩ := List.mem_map.mp hmem
      split
      · exact hvalue
      · exact hitems old hold
  · next hnew =>
    constructor
    · rw [List.map_append, List.nodup_append]
      refine ⟨hnodup, List.nodup_singleton _, ?_⟩
      rintro other hother k hk rfl
      obtain ⟨item, hitem, rfl⟩ := List.mem_map.mp hother
      have hkey : item.1 = .str key := by simpa using hk
      exact hnew (List.any_eq_true.mpr ⟨item, hitem, beq_iff_eq.mpr hkey⟩)
    · rw [wellFormedItems_iff]
      intro item hmem
      rcases List.mem_append.mp hmem with hold | hadded
      · exact hitems item hold
      · rw [List.mem_singleton.mp hadded]
        exact hvalue

theorem wellFormed_texts (items : List String) : WellFormed (.list (items.map .str)) := by
  rw [WellFormed, wellFormedList_iff]
  intro item hmem
  obtain ⟨text, -, rfl⟩ := List.mem_map.mp hmem
  trivial

theorem AppendPyEvent.wellFormed_payloadObj (a : AppendPyEvent) : WellFormed (.dict a.payloadObj) := by
  have hstatus : WellFormed (.dict a.withStatus) := by
    rw [withStatus]
    cases a.status with
    | none => exact a.payload.wellFormed
    | some status =>
      dsimp only
      split
      · exact a.payload.wellFormed
      · exact wellFormed_set a.payload.wellFormed "status" trivial
  rw [payloadObj]
  cases a.error with
  | none => exact hstatus
  | some error =>
    dsimp only
    split
    · exact hstatus
    · exact wellFormed_set hstatus "error" error.wellFormed

theorem AppendPyEvent.wellFormed_refsObj (a : AppendPyEvent) : WellFormed (.dict a.refsObj) := by
  have hartifacts : WellFormed (.dict a.withArtifacts) := by
    rw [withArtifacts]
    cases a.artifactRefs with
    | none => exact a.refs.wellFormed
    | some items => exact wellFormed_set a.refs.wellFormed "artifact_refs" (wellFormed_texts items)
  rw [refsObj]
  cases a.memoryRefs with
  | none => exact hartifacts
  | some items => exact wellFormed_set hartifacts "memory_refs" (wellFormed_texts items)

theorem wellFormed_bounded (rt : PyRuntime) (d : ℕ) (v : PyValue) : WellFormed (boundedToolValue rt d v) := by
  induction d generalizing v with
  | zero => trivial
  | succ d ih =>
    have hlist (items : List PyValue) : WellFormed (.list (if items.length > 50 then
        (items.take 50).map (boundedToolValue rt d) ++ [PyValue.str ("[TRUNCATED " ++ toString (items.length - 50) ++ " ITEMS]")]
        else (items.take 50).map (boundedToolValue rt d))) := by
      rw [WellFormed, wellFormedList_iff]
      intro item hmem
      split at hmem
      · rcases List.mem_append.mp hmem with hkept | hadded
        · obtain ⟨old, -, rfl⟩ := List.mem_map.mp hkept
          exact ih old
        · rw [List.mem_singleton.mp hadded]
          trivial
      · obtain ⟨old, -, rfl⟩ := List.mem_map.mp hmem
        exact ih old
    cases v with
    | list items => exact hlist items
    | tuple items => exact hlist items
    | dict items =>
      rw [boundedToolValue]
      have hbounded : WellFormed (.dict ((items.take 50).foldl (fun bounded item =>
          PyItems.set bounded (keyStr item.1) (if sensitiveKeyParts.any fun part => part.toList <:+: (rt.lower (keyStr item.1)).toList then
            .str "[REDACTED]" else boundedToolValue rt d item.2)) [])) := by
        refine List.foldlRecOn (motive := fun bounded : PyItems => WellFormed (.dict bounded)) _ _ ⟨List.nodup_nil, trivial⟩ ?_
        intro bounded h item _
        refine wellFormed_set h _ ?_
        split
        · trivial
        · exact ih item.2
      split
      · exact wellFormed_set hbounded _ trivial
      · exact hbounded
    | str s =>
      rw [boundedToolValue]
      split
      · trivial
      · trivial
    | _ => trivial

section Prepared

variable {rt : PyRuntime} {db : SessionDb}

theorem wellFormed_dependsOn {payload : PyItems} {items : List PyValue} (h : dependsOnField payload = .ok items) :
    WellFormed (.list items) := by
  rw [dependsOnField] at h
  split at h
  · split at h
    · next hall =>
      cases h
      refine wellFormedList_iff.mpr fun item hmem => ?_
      have htext := List.all_eq_true.mp hall item hmem
      cases item with
      | str s => trivial
      | _ => cases htext
    · cases h
  · cases h

theorem phaseFields_spec {eventType : String} {payload rest : PyItems} (h : phaseFields rt eventType payload = .ok rest) :
    (∀ item ∈ rest, WellFormed item.2) ∧
      (rest.map (·.1) = [.str "canonical_name", .str "sanitized_normalized_arguments", .str "batch_index", .str "depends_on"] ∨
        rest.map (·.1) = [.str "status", .str "output"] ∨ rest.map (·.1) = [.str "status", .str "error"]) := by
  rw [phaseFields] at h
  split at h
  · rw [requestedFields] at h
    simp only [bind_eq_ok] at h
    obtain ⟨name, -, arguments, -, index, -, dependsOn, hdepends, h⟩ := h
    cases h
    refine ⟨?_, .inl rfl⟩
    simp only [List.forall_mem_cons]
    exact ⟨trivial, wellFormed_bounded rt 6 _, trivial, wellFormed_dependsOn hdepends, List.forall_mem_nil _⟩
  · rw [terminalFields] at h
    simp only [bind_eq_ok] at h
    obtain ⟨-, -, status, -, h⟩ := h
    split at h
    · simp only [bind_eq_ok] at h
      obtain ⟨-, -, -, -, h⟩ := h
      cases h
      refine ⟨?_, .inr (.inl rfl)⟩
      simp only [List.forall_mem_cons]
      exact ⟨trivial, wellFormed_bounded rt 6 _, List.forall_mem_nil _⟩
    · simp only [bind_eq_ok] at h
      obtain ⟨-, -, h⟩ := h
      split at h
      · cases h
        refine ⟨?_, .inr (.inr rfl)⟩
        simp only [List.forall_mem_cons]
        exact ⟨trivial, wellFormed_bounded rt 6 _, List.forall_mem_nil _⟩
      · cases h

theorem linkageItems_spec (l : ToolLinkage) : (∀ item ∈ linkageItems l, WellFormed item.2) ∧
    ((linkageItems l).map (·.1) = [.str "schema_version", .str "turn_scope_id", .str "call_id"] ∨
      (linkageItems l).map (·.1) = [.str "schema_version", .str "turn_scope_id", .str "call_id", .str "research_invocation_id"]) := by
  rw [linkageItems]
  cases l.researchInvocationId with
  | none =>
    refine ⟨?_, .inl rfl⟩
    simp only [List.append_nil, List.forall_mem_cons]
    exact ⟨trivial, trivial, trivial, List.forall_mem_nil _⟩
  | some rid =>
    refine ⟨?_, .inr rfl⟩
    simp only [List.cons_append, List.nil_append, List.forall_mem_cons]
    exact ⟨trivial, trivial, trivial, trivial, List.forall_mem_nil _⟩

theorem wellFormed_canonicalToolPayload {eventType : String} {payload canonical : PyItems} {l : ToolLinkage}
    (h : canonicalToolPayload rt eventType payload = .ok (l, canonical)) : WellFormed (.dict canonical) := by
  rw [canonicalToolPayload] at h
  simp only [bind_eq_ok] at h
  obtain ⟨linkage, -, rest, hrest, h⟩ := h
  cases h
  obtain ⟨hitems, hkeys⟩ := phaseFields_spec hrest
  obtain ⟨hlinkageItems, hlinkageKeys⟩ := linkageItems_spec l
  refine ⟨?_, wellFormedItems_iff.mpr (List.forall_mem_append.mpr ⟨hlinkageItems, hitems⟩)⟩
  rw [List.map_append]
  rcases hlinkageKeys with hlinkage | hlinkage
  all_goals
    rw [hlinkage]
    rcases hkeys with hphase | hphase | hphase
    all_goals
      rw [hphase]
      decide +kernel

theorem validateToolResultParent_mono {db' : SessionDb} {sid : String} {parent : Option String} {payload : Dict}
    (hkept : ∀ id row, getEventById db id = some row → getEventById db' id = some row)
    (h : validateToolResultParent db sid parent payload = .ok ()) : validateToolResultParent db' sid parent payload = .ok () := by
  rw [validateToolResultParent] at h ⊢
  simp only [bind_eq_ok] at h ⊢
  obtain ⟨_, hparent, h⟩ := h
  refine ⟨(), hparent, ?_⟩
  cases hrow : getEventById db (parent.getD "") with
  | none =>
    rw [hrow] at h
    cases h
  | some row =>
    rw [hrow] at h
    rw [hkept _ _ hrow]
    exact h

/-- An event with a derived id: its payload has each key once, and it is prepared alike while events are only added. -/
theorem prepareEvent_spec (db' : SessionDb) {sid eventName id : String} {payloadObj payload : PyItems} {parent trace : Option String}
    (h : prepareEvent rt db sid eventName payloadObj parent trace = .ok (payload, some id)) (hpayload : WellFormed (.dict payloadObj)) :
    id ≠ "" ∧ eventName ≠ "task_plan.step_started" ∧ WellFormed (.dict payload) ∧
      ((∀ id row, getEventById db id = some row → getEventById db' id = some row) →
        prepareEvent rt db' sid eventName payloadObj parent trace = .ok (payload, some id)) := by
  rw [prepareEvent] at h ⊢
  cases hllm : llmEventId rt sid eventName payloadObj trace with
  | some eventId =>
    rw [hllm] at h
    cases h
    rw [llmEventId] at hllm
    split at hllm
    · next hname =>
      cases hllm
      refine ⟨rt.uuid5Hex_ne _, ?_, hpayload, fun _ => rfl⟩
      rintro rfl
      exact absurd hname.1 (by decide +kernel)
    · cases hllm
  | none =>
    rw [hllm] at h
    dsimp only at h ⊢
    by_cases hcanonical : isCanonicalToolEvent eventName payloadObj = true
    · rw [if_pos hcanonical] at h ⊢
      have hname : eventName ≠ "task_plan.step_started" := by
        rintro rfl
        rw [isCanonicalToolEvent] at hcanonical
        have hnot : "task_plan.step_started" ≠ "tool.call.requested" ∧ "task_plan.step_started" ∉ toolTranscriptEvents := by
          decide +kernel
        simp [hnot] at hcanonical
      obtain ⟨⟨l, canonical⟩, hpayload, h⟩ := bind_eq_ok.mp h
      rw [hpayload]
      dsimp only at h
      by_cases hrequested : eventName = "tool.call.requested"
      · rw [if_pos hrequested] at h
        cases h
        refine ⟨rt.uuid5Hex_ne _, hname, wellFormed_canonicalToolPayload hpayload, fun _ => ?_⟩
        change (if eventName = "tool.call.requested" then _ else _) = _
        rw [if_pos hrequested]
        rfl
      · rw [if_neg hrequested] at h
        obtain ⟨_, hparent, h⟩ := bind_eq_ok.mp h
        cases h
        refine ⟨rt.uuid5Hex_ne _, hname, wellFormed_canonicalToolPayload hpayload, fun hkept => ?_⟩
        change (if eventName = "tool.call.requested" then _ else _) = _
        rw [if_neg hrequested, validateToolResultParent_mono hkept hparent]
        rfl
    · rw [if_neg hcanonical] at h
      cases h

end Prepared

section Replay

variable {rt : PyRuntime} {db db' : SessionDb} {a : AppendPyEvent} {eventName id : String} {payload : PyItems}

theorem lift_ok {α : Type} {r : Except StoreError α} {value : α} : lift r = .ok value ↔ r = .ok value := by
  cases r with
  | error e => simp [lift, Except.mapError]
  | ok v => simp [lift, Except.mapError]

theorem pyBind_eq_ok {α β : Type} {x : Except PyError α} {f : α → Except PyError β} {b : β} :
    (x >>= f) = .ok b ↔ ∃ a, x = .ok a ∧ f a = .ok b := by
  cases x with
  | error e => simp [bind, Except.bind]
  | ok a => simp [bind, Except.bind]

theorem orText_some {text : String} (h : text ≠ "") (other : Option String) : orText (some text) other = some text := if_neg h

def AppendPyEvent.derivedEvent (rt : PyRuntime) (a : AppendPyEvent) (eventName : String) (payload : PyItems) (id : String) : NewEvent :=
  a.event rt eventName payload (some id) (traceField rt.toRuntime a.trace "task_id" a.taskId)

/-- A call whose event is prepared with a derived id. -/
structure Derived (rt : PyRuntime) (db : SessionDb) (a : AppendPyEvent) (eventName : String) (payload : PyItems) (id : String) : Prop where
  name : validatedEventName a.type a.eventType = .ok eventName
  prepared : prepareEvent rt db a.sessionId eventName a.payloadObj (orText a.parentEventId a.parentId)
    (traceField rt.toRuntime a.trace "trace_id" a.traceId) = .ok (payload, some id)

theorem Derived.id_ne (h : Derived rt db a eventName payload id) : id ≠ "" :=
  (prepareEvent_spec db h.prepared a.wellFormed_payloadObj).1

theorem Derived.eventId (h : Derived rt db a eventName payload id) : (a.derivedEvent rt eventName payload id).eventId = id := by
  change (orText (some id) _).getD "" = id
  rw [orText_some h.id_ne]
  rfl

theorem Derived.eventExisted (h : Derived rt db a eventName payload id) :
    eventExisted db (some id) = (getEventById db id).isSome := by
  rw [SessionEventWrites.eventExisted, orText_some h.id_ne]

theorem appendPyEvent_ok_iff (h : Derived rt db a eventName payload id) {result : SessionDb × String} :
    appendPyEvent rt db a = .ok result ↔ db.hasSession a.sessionId = true ∧ ∃ db₁ db₂,
      insertPyEvent db (a.derivedEvent rt eventName payload id) payload a.refsObj = .ok db₁ ∧
      (if (getEventById db id).isSome then db₂ = db₁
        else backfillRunUsage rt.toRuntime db₁ eventName (usagePayload rt payload) = .ok db₂) ∧
      result = (db₂.touchSession a.sessionId a.now, id) := by
  have htask : eventTaskId rt.toRuntime db a.columns eventName (readItems payload) =
      .ok (traceField rt.toRuntime a.trace "task_id" a.taskId) := by
    rw [eventTaskId, if_neg (prepareEvent_spec db h.prepared a.wellFormed_payloadObj).2.1]
    rfl
  rw [appendPyEvent]
  simp only [pyBind_eq_ok, lift_ok]
  constructor
  · rintro ⟨name, hname, ⟨payload', eventId⟩, hprepared, taskId, htaskId, _, hsession, db₁, hinsert, db₂, hbackfill, hresult⟩
    obtain rfl := Except.ok.inj (h.name.symm.trans hname)
    obtain ⟨rfl, rfl⟩ := Prod.mk.inj (Except.ok.inj (h.prepared.symm.trans hprepared))
    obtain rfl := Except.ok.inj (htask.symm.trans htaskId)
    refine ⟨require_eq_ok.mp hsession, db₁, db₂, hinsert, ?_, ?_⟩
    · rw [h.eventExisted] at hbackfill
      cases hexisted : (getEventById db id).isSome with
      | true =>
        rw [hexisted] at hbackfill
        exact (Except.ok.inj hbackfill).symm
      | false =>
        rw [hexisted] at hbackfill
        exact lift_ok.mp hbackfill
    · have hid := h.eventId
      exact (Except.ok.inj hresult).symm.trans (congrArg (Prod.mk _) hid)
  · rintro ⟨hsession, db₁, db₂, hinsert, hbackfill, rfl⟩
    refine ⟨eventName, h.name, (payload, some id), h.prepared, _, htask, (), require_eq_ok.mpr hsession, db₁, hinsert, db₂, ?_, ?_⟩
    · rw [h.eventExisted]
      cases hexisted : (getEventById db id).isSome with
      | true =>
        rw [hexisted] at hbackfill
        exact congrArg Except.ok hbackfill.symm
      | false =>
        rw [hexisted] at hbackfill
        exact lift_ok.mpr hbackfill
    · exact congrArg (fun eventId => Except.ok (_, eventId)) h.eventId

/-- The call returns the id and changes neither the events nor the usage of the runs. -/
def AddsNothing (rt : PyRuntime) (db : SessionDb) (a : AppendPyEvent) (id : String) : Prop :=
  ∃ db', appendPyEvent rt db a = .ok (db', id) ∧ db'.sessionEvents = db.sessionEvents ∧ db'.runRecords = db.runRecords

theorem addsNothing_of_stored (h : Derived rt db a eventName payload id) (hsession : db.hasSession a.sessionId = true)
    {existing : SessionEventRow} (hrow : getEventById db id = some existing) :
    AddsNothing rt db a id ↔ observedExpected (a.derivedEvent rt eventName payload id) payload a.refsObj existing = true := by
  have hinsert : ∀ db₁, insertPyEvent db (a.derivedEvent rt eventName payload id) payload a.refsObj = .ok db₁ ↔
      observedExpected (a.derivedEvent rt eventName payload id) payload a.refsObj existing = true ∧ db₁ = db := by
    intro db₁
    rw [insertPyEvent, h.eventId, hrow]
    dsimp only
    split
    · next hagrees => simp [hagrees, eq_comm]
    · next hagrees => simp [hagrees]
  constructor
  · rintro ⟨db', happend, -⟩
    obtain ⟨-, db₁, db₂, hinserted, -⟩ := (appendPyEvent_ok_iff h).mp happend
    exact ((hinsert db₁).mp hinserted).1
  · intro hagrees
    refine ⟨db.touchSession a.sessionId a.now, (appendPyEvent_ok_iff h).mpr ⟨hsession, db, db, (hinsert db).mpr ⟨hagrees, rfl⟩, ?_, rfl⟩, rfl, rfl⟩
    rw [hrow]
    rfl

theorem observedExpected_row (hpayload : WellFormed (.dict payload)) (seq : ℕ) (taskId : Option String) :
    observedExpected (a.event rt eventName payload (some id) taskId) payload a.refsObj
        ((a.event rt eventName payload (some id) taskId).row seq) =
      (faithful (.dict payload) && faithful (.dict a.refsObj)) := by
  have hcolumns : columnsAgree (a.event rt eventName payload (some id) taskId)
      ((a.event rt eventName payload (some id) taskId).row seq) = true := by
    simp [columnsAgree, NewEvent.row]
  rw [observedExpected, hcolumns, Bool.true_and, ← sameAs_readBack _ hpayload, ← sameAs_readBack _ a.wellFormed_refsObj]
  rfl

theorem backfilled_events {db₁ db₂ : SessionDb}
    (h : if (getEventById db id).isSome then db₂ = db₁
      else backfillRunUsage rt.toRuntime db₁ eventName (usagePayload rt payload) = .ok db₂) :
    db₂.sessionEvents = db₁.sessionEvents ∧ db₂.sessions = db₁.sessions := by
  split at h
  · rw [h]
    exact ⟨rfl, rfl⟩
  · obtain ⟨runs, rfl⟩ := backfillRunUsage_ok h
    exact ⟨rfl, rfl⟩

theorem hasSession_append {db₁ db₂ : SessionDb} (h : db₁.sessions = db₂.sessions) (sid : String) :
    db₁.hasSession sid = db₂.hasSession sid := by
  rw [SessionDb.hasSession, SessionDb.hasSession, h]

/-- A repeated call adds nothing exactly when the first call found its event stored, or JSON keeps both the payload and the refs. -/
theorem repeated_iff (h : Derived rt db a eventName payload id) {stored : String} (happend : appendPyEvent rt db a = .ok (db', stored))
    (freshId : String) (now : DateTime) :
    AddsNothing rt db' { a with freshId, now } stored ↔
      (getEventById db id).isSome = true ∨ faithful (.dict payload) = true ∧ faithful (.dict a.refsObj) = true := by
  obtain ⟨hsession, db₁, db₂, hinsert, hbackfill, hresult⟩ := (appendPyEvent_ok_iff h).mp happend
  obtain ⟨rfl, rfl⟩ := Prod.mk.inj hresult
  obtain ⟨hevents, hsessions⟩ := backfilled_events hbackfill
  have hsame : ∀ row, observedExpected ((({ a with freshId, now } : AppendPyEvent)).derivedEvent rt eventName payload stored) payload
      ({ a with freshId, now } : AppendPyEvent).refsObj row =
        observedExpected (a.derivedEvent rt eventName payload stored) payload a.refsObj row := fun _ => rfl
  have hderived (hkept : ∀ id row, getEventById db id = some row → getEventById db₁ id = some row) :
      Derived rt (db₂.touchSession a.sessionId a.now) { a with freshId, now } eventName payload stored := by
    refine ⟨h.name, (prepareEvent_spec _ h.prepared a.wellFormed_payloadObj).2.2.2 fun id row hrow => ?_⟩
    change lookup _ _ db₂.sessionEvents = _
    rw [hevents]
    exact hkept id row hrow
  rw [insertPyEvent, h.eventId] at hinsert
  cases hexisting : getEventById db stored with
  | some existing =>
    rw [hexisting] at hinsert
    dsimp only at hinsert
    split at hinsert
    · next hagrees =>
      cases hinsert
      refine iff_of_true ?_ (.inl rfl)
      have hrow : getEventById (db₂.touchSession a.sessionId a.now) stored = some existing := by
        change lookup _ _ db₂.sessionEvents = _
        rw [hevents]
        exact hexisting
      have hsession' : (db₂.touchSession a.sessionId a.now).hasSession a.sessionId = true := by
        rw [SessionDb.hasSession_touchSession, hasSession_append hsessions]
        exact hsession
      exact (addsNothing_of_stored (hderived fun _ _ hrow => hrow) hsession' hrow).mpr ((hsame existing).trans hagrees)
    · cases hinsert
  | none =>
    rw [hexisting] at hinsert
    dsimp only at hinsert
    split at hinsert
    · have hinserted := lift_ok.mp hinsert
      rw [insertSessionEvent, h.eventId, hexisting] at hinserted
      dsimp only at hinserted
      split at hinserted
      · cases hinserted
        generalize hseq : latestEventSeq db _ + 1 = seq at hevents
        have hrow : getEventById (db₂.touchSession a.sessionId a.now) stored =
            some ((a.derivedEvent rt eventName payload stored).row seq) := by
          change lookup _ _ db₂.sessionEvents = _
          rw [hevents, lookup, List.find?_append]
          change ((lookup _ _ db.sessionEvents).or _) = _
          rw [getEventById] at hexisting
          rw [hexisting, Option.none_or]
          refine List.find?_cons_of_pos (decide_eq_true ?_)
          exact h.eventId
        have hkept (id : String) (row : SessionEventRow) (hold : getEventById db id = some row) :
            lookup SessionEventRow.eventId id (db.sessionEvents ++ [(a.derivedEvent rt eventName payload stored).row seq]) = some row := by
          rw [lookup, List.find?_append]
          change ((lookup _ _ db.sessionEvents).or _) = _
          rw [getEventById] at hold
          rw [hold, Option.some_or]
        have hsession' : (db₂.touchSession a.sessionId a.now).hasSession a.sessionId = true := by
          rw [SessionDb.hasSession_touchSession, hasSession_append hsessions]
          exact hsession
        have hpayload : WellFormed (.dict payload) := (prepareEvent_spec db h.prepared a.wellFormed_payloadObj).2.2.1
        rw [hseq] at hderived
        rw [addsNothing_of_stored (hderived hkept) hsession' hrow, hsame]
        change observedExpected (a.event rt eventName payload (some stored) _) payload a.refsObj
          ((a.event rt eventName payload (some stored) _).row seq) = true ↔ _
        rw [observedExpected_row hpayload, Bool.and_eq_true]
        simp
      · cases hinserted
    · cases hinsert

end Replay

def pyRuntime : PyRuntime where
  uuid5Hex name := "id:" ++ name
  uuid5Hex_ne name := by
    intro h
    have hlength := congrArg String.length h
    rw [String.length_append] at hlength
    exact absurd hlength (by simp)
  reprOf _ := ""
  lower := id
  redactSensitiveText := id
  parseInt _ := none
  stepTaskId _ _ := .error (.valueError "task plan start requires an active plan")
  strOf _ := ""

def callTime : DateTime := ⟨63919965600000000, tenOClock_lt_endOfTime⟩

def emptySession : SessionDb := committed {} (insertSession {} { sessionId := some "s", freshId := "", now := callTime })

def llmItems (choices : PyValue) : PyItems :=
  [(.str "llm_call_id", .str "c"), (.str "run_id", .str "r"), (.str "choices", choices)]

def llmCall (choices : PyValue) (h : WellFormed choices) : AppendPyEvent where
  sessionId := "s"
  eventType := some "llm.call.completed"
  payload := ⟨llmItems choices, by
    have hkeys : [PyKey.str "llm_call_id", .str "run_id", .str "choices"].Nodup := by decide +kernel
    exact hkeys, trivial, trivial, h, trivial⟩
  freshId := ""
  now := callTime

def llmId : String := "id:openminion:llm:v1:s:r:c:llm.call.completed"

theorem derived_llmCall (choices : PyValue) (h : WellFormed choices) :
    Derived pyRuntime emptySession (llmCall choices h) "llm.call.completed" (llmItems choices) llmId where
  name := by
    change validatedEventName none (some "llm.call.completed") = _
    decide +kernel
  prepared := by
    have hrun : PyItems.get (llmItems choices) "run_id" = .str "r" := rfl
    have hcall : PyItems.get (llmItems choices) "llm_call_id" = .str "c" := rfl
    have hllm : llmEventId pyRuntime "s" "llm.call.completed" (llmItems choices) none = some llmId := by
      rw [llmEventId, hrun, hcall]
      decide +kernel
    change prepareEvent pyRuntime emptySession "s" "llm.call.completed" (llmItems choices) none none = _
    rw [prepareEvent, hllm]

theorem wellFormed_choices : WellFormed (.list [.str "stop"]) := ⟨trivial, trivial⟩

def afterCall (choices : PyValue) (h : WellFormed choices) : SessionDb :=
  match appendPyEvent pyRuntime emptySession (llmCall choices h) with
  | .ok (db, _) => db
  | .error _ => emptySession

theorem appended_of_returned {choices : PyValue} {h : WellFormed choices}
    (hreturned : (appendPyEvent pyRuntime emptySession (llmCall choices h)).toOption.map Prod.snd = some llmId) :
    appendPyEvent pyRuntime emptySession (llmCall choices h) = .ok (afterCall choices h, llmId) := by
  rw [afterCall]
  cases hresult : appendPyEvent pyRuntime emptySession (llmCall choices h) with
  | error e =>
    rw [hresult] at hreturned
    cases hreturned
  | ok result =>
    obtain ⟨db, id⟩ := result
    rw [hresult] at hreturned
    cases hreturned
    rfl

theorem appended_list : appendPyEvent pyRuntime emptySession (llmCall (.list [.str "stop"]) wellFormed_choices) =
    .ok (afterCall (.list [.str "stop"]) wellFormed_choices, llmId) :=
  appended_of_returned (by decide +kernel)

theorem appended_tuple : appendPyEvent pyRuntime emptySession (llmCall (.tuple [.str "stop"]) wellFormed_choices) =
    .ok (afterCall (.tuple [.str "stop"]) wellFormed_choices, llmId) :=
  appended_of_returned (by decide +kernel)

/-- A call with a list among its values adds nothing when it is repeated. -/
theorem repeated_list_iff : AddsNothing pyRuntime (afterCall (.list [.str "stop"]) wellFormed_choices)
      (llmCall (.list [.str "stop"]) wellFormed_choices) llmId ↔
    (getEventById emptySession llmId).isSome = true ∨ faithful (.dict (llmItems (.list [.str "stop"]))) = true ∧
      faithful (.dict (llmCall (.list [.str "stop"]) wellFormed_choices).refsObj) = true :=
  repeated_iff (derived_llmCall _ wellFormed_choices) appended_list "" callTime

/-- A call with a tuple among its values is refused when it is repeated. -/
theorem repeated_tuple_refused :
    ¬ ∀ (rt : PyRuntime) (db db' : SessionDb) (a : AppendPyEvent) (eventName : String) (payload : PyItems) (id stored : String)
      (freshId : String) (now : DateTime), Derived rt db a eventName payload id → appendPyEvent rt db a = .ok (db', stored) →
      AddsNothing rt db' { a with freshId, now } stored := by
  intro h
  have hderived := derived_llmCall (.tuple [.str "stop"]) wellFormed_choices
  have hadds := h pyRuntime emptySession _ _ _ _ _ _ "" callTime hderived appended_tuple
  rw [repeated_iff hderived appended_tuple] at hadds
  exact absurd hadds (by decide +kernel)

end OpenMinion.IdempotentAppends
