import OpenMinion.InterleavedThreads
import OpenMinion.SessionReferences

/-!
# Applying continuation packets

`apply` looks for an applied event of the packet, checks the target session, and inserts an applied event, which the
unique index refuses for all but one call. The processes run it statement by statement.
-/
namespace OpenMinion.ContinuationApply
open InterleavedThreads IsoTimestamps JsonValues KeyedTables PythonText SessionEventWrites
open SessionReferences SessionTables

structure RoomHandoffBinding where
  roomSessionId : String
  localHumanAuthorityId : String
  sourceAgentId : String
  targetAgentId : String
  targetSessionId : String
  taskStepId : String
  deriving DecidableEq

inductive ContinuationKind where
  | sameAgentResume
  | roomAgentHandoff
  deriving DecidableEq

/-- `SessionContinuationPayload`: what `apply` reads of it, and its dump. -/
structure ContinuationPayload where
  schemaVersion : String := "session_continuation.v1"
  expiresAtMs : ℤ
  sourceSessionId : String
  sourceLatestSeq : ℕ
  targetAgentId : String
  continuationKind : ContinuationKind := .sameAgentResume
  roomHandoffBinding : Option RoomHandoffBinding := none
  workspaceRef : Option String := none
  projectRunRef : Option String := none
  permissionRefs : List String := []
  modelDump : Dict := []
  deriving DecidableEq

structure SessionContinuationPacket where
  packetId : String
  eventSeq : ℕ
  eventTimestamp : DateTime
  sourceSessionId : String
  payload : ContinuationPayload
  deriving DecidableEq

def SessionContinuationPacket.stored (packet : SessionContinuationPacket) : ContinuationPacket where
  packetId := packet.packetId
  sourceSessionId := packet.sourceSessionId
  schemaVersion := packet.payload.schemaVersion
  continuation := packet.payload.modelDump
  permissionRefs := packet.payload.permissionRefs

inductive ApplyError where
  /-- `ContinuationError`, by its code. -/
  | continuation (code : String)
  | store (error : StoreError)
  | assertion
  deriving DecidableEq

structure ContinuationEnv where
  rt : Runtime
  /-- `SessionContinuationPayload.model_validate`; an error carries its message. -/
  modelValidate : Dict → Except String ContinuationPayload

def packetErrorCode (message : String) : String :=
  if "unsupported_continuation_schema".toList <:+: message.toList then "unsupported_continuation_schema"
  else "invalid_continuation_packet"

/-- The constraints of `SessionContinuationPacket` on its fields and its lineage. -/
def packetValid (packet : SessionContinuationPacket) : Bool :=
  packet.packetId ≠ "" && 1 ≤ packet.eventSeq && packet.sourceSessionId ≠ "" &&
    packet.sourceSessionId = packet.payload.sourceSessionId && packet.payload.sourceLatestSeq < packet.eventSeq

def getPacket (env : ContinuationEnv) (db : SessionDb) (packetId : String) :
    Except ApplyError SessionContinuationPacket :=
  match getEventById db packetId with
  | none => .error (.continuation "continuation_packet_not_found")
  | some event =>
    if event.eventType ≠ "session.continuation.packet_created" then
      .error (.continuation "continuation_packet_wrong_event_type")
    else match env.modelValidate event.payload with
      | .error message => .error (.continuation (packetErrorCode message))
      | .ok payload =>
        let packet : SessionContinuationPacket :=
          ⟨event.eventId, event.seq, event.timestamp, event.sessionId, payload⟩
        if packetValid packet then .ok packet else .error (.continuation "invalid_continuation_packet")

def isApplied (packetId : String) (e : SessionEventRow) : Bool :=
  e.parentEventId = some packetId && e.eventType = "session.continuation.applied"

def applied (db : SessionDb) (packetId : String) : List SessionEventRow := db.sessionEvents.filter (isApplied packetId)

/-- `get_events_by_parent_and_type` for applied events, `ORDER BY timestamp, event_id`. -/
def appliedByTime (db : SessionDb) (packetId : String) : List SessionEventRow :=
  (applied db packetId).insertionSort fun a b =>
    toIsoUtc a.timestamp < toIsoUtc b.timestamp ∨ a.timestamp = b.timestamp ∧ a.eventId ≤ b.eventId

/-- `get_events` of a session, for applied events. -/
def appliedIn (db : SessionDb) (sessionId : String) : List SessionEventRow :=
  (eventsOf db sessionId).filter fun e => e.eventType = "session.continuation.applied"

/-- `get_total_turn_count`. -/
def totalTurnCount (db : SessionDb) (sessionId : String) : ℕ :=
  (db.sessionEvents.filter fun e => e.sessionId = sessionId && e.eventType ∈ ["turn.user", "turn.assistant"]).length

def roomBindingFailure (payload : ContinuationPayload) (binding : Option RoomHandoffBinding) (targetSessionId : String) :
    Option String :=
  match payload.continuationKind, binding with
  | .sameAgentResume, _ => none
  | .roomAgentHandoff, none => some "continuation_room_binding_required"
  | .roomAgentHandoff, some binding =>
    if some binding ≠ payload.roomHandoffBinding ∨ binding.targetSessionId ≠ targetSessionId then
      some "continuation_room_binding_mismatch"
    else none

def optionalRef (rt : Runtime) (metaJson : Json) (key : String) : Option String :=
  let text := strip (rt.textOr (match metaJson with | .dict items => Dict.get items key | _ => .null))
  if text = "" then none else some text

def refMismatch (rt : Runtime) (metaJson : Json) (key : String) (expected : Option String) : Bool :=
  match expected with
  | none => false
  | some ref => ref ≠ "" && optionalRef rt metaJson key ≠ some ref

/-- The end of `_eligibility_failure`. -/
def refsFailure (rt : Runtime) (payload : ContinuationPayload) (target : SessionRow) : Option String :=
  if refMismatch rt target.metaJson "workspace_ref" payload.workspaceRef then some "continuation_workspace_mismatch"
  else if refMismatch rt target.metaJson "project_run_ref" payload.projectRunRef then
    some "continuation_project_run_mismatch"
  else none

/-- A call of `apply`. `winner` is the applied event that the packet had when the call began;
the code does not read it. -/
structure ApplyCall where
  targetSessionId : String
  packetId : String
  roomBinding : Option RoomHandoffBinding := none
  winner : Option SessionEventRow := none
  deriving DecidableEq

inductive ApplyStatus where
  | applied
  | alreadyApplied
  | rejected
  deriving DecidableEq

/-- `ContinuationApplyResult`. -/
structure ApplyResult where
  status : ApplyStatus
  packetId : String
  sourceSessionId : Option String
  targetSessionId : Option String
  sourceEventId : Option String
  targetEventId : Option String
  reasonCode : Option String
  warnings : List String
  deriving DecidableEq

def applyResult (packet : SessionContinuationPacket) (targetSessionId : String) (targetEventId : Option String)
    (status : ApplyStatus) (reasonCode : Option String := none) : ApplyResult where
  status := status
  packetId := packet.packetId
  sourceSessionId := some packet.sourceSessionId
  targetSessionId := some targetSessionId
  sourceEventId := some packet.packetId
  targetEventId := targetEventId
  reasonCode := reasonCode
  warnings := if packet.payload.permissionRefs.isEmpty then [] else ["permission_revalidation_required"]

/-- Where a process is in `apply`. -/
inductive Activity where
  | idle
  | gettingPacket (call : ApplyCall)
  /-- Before the first `get_events_by_parent_and_type`. -/
  | checkingPrior (call : ApplyCall) (packet : SessionContinuationPacket)
  /-- `_eligibility_failure`, before it reads the clock. -/
  | checkingExpiry (call : ApplyCall) (packet : SessionContinuationPacket)
  /-- `_target_session_failure`, before `get_session`. -/
  | gettingTarget (call : ApplyCall) (packet : SessionContinuationPacket)
  | countingTurns (call : ApplyCall) (packet : SessionContinuationPacket)
  | findingApplied (call : ApplyCall) (packet : SessionContinuationPacket)
  /-- Before the second `get_session`. -/
  | gettingRefs (call : ApplyCall) (packet : SessionContinuationPacket)
  /-- Before `_append_applied_event`. -/
  | applying (call : ApplyCall) (packet : SessionContinuationPacket)
  /-- After the insert was refused. -/
  | rereading (call : ApplyCall) (packet : SessionContinuationPacket)
  /-- Before the event of `_reject`. -/
  | rejecting (call : ApplyCall) (packet : SessionContinuationPacket) (reason : String)

def Activity.isIdle : Activity → Bool
  | .idle => true
  | _ => false

structure Outcome where
  call : ApplyCall
  result : Except ApplyError ApplyResult

structure Shared where
  db : SessionDb
  outcomes : List Outcome := []

/-- What a step draws from outside: a `uuid4`, and readings of the clock. -/
structure Draw where
  freshId : String
  now : DateTime
  nowMs : ℤ

/-- The event of `_reject`. -/
def rejectedEvent (packet : SessionContinuationPacket) (targetSessionId reason : String) (draw : Draw) : AppendEvent where
  sessionId := packet.sourceSessionId
  eventType := some (if reason = "continuation_expired" then "session.continuation.expired"
    else "session.continuation.rejected")
  parentEventId := some packet.packetId
  payload := [("packet_id", .str packet.packetId), ("target_session_id", .str targetSessionId),
    ("reason_code", .str reason)]
  importance := 2
  redaction := some "bounded"
  freshId := draw.freshId
  now := draw.now

section Steps

variable (env : ContinuationEnv)

def begin (s : Shared) (call : ApplyCall) : Shared × Activity :=
  (s, .gettingPacket { call with winner := (applied s.db call.packetId).head? })

def finish (s : Shared) (call : ApplyCall) (result : Except ApplyError ApplyResult) : Shared × Activity :=
  ({ s with outcomes := s.outcomes ++ [⟨call, result⟩] }, .idle)

def afterPrior (s : Shared) (call : ApplyCall) (packet : SessionContinuationPacket) (prior : SessionEventRow) :
    Shared × Activity :=
  if prior.sessionId = call.targetSessionId then
    finish s call (.ok (applyResult packet call.targetSessionId (some prior.eventId) .alreadyApplied))
  else (s, .rejecting call packet "continuation_target_conflict")

def rejectOr (s : Shared) (call : ApplyCall) (packet : SessionContinuationPacket) (failure : Option String)
    (act : Activity) : Shared × Activity :=
  match failure with
  | some reason => (s, .rejecting call packet reason)
  | none => (s, act)

/-- The first checks of `_target_session_failure`. -/
def targetFailure (packet : SessionContinuationPacket) (target : Option SessionRow) : Option String :=
  match target with
  | none => some "continuation_target_not_found"
  | some target =>
    if strip (target.activeAgentId.getD "") ≠ packet.payload.targetAgentId then some "continuation_agent_mismatch"
    else none

def next (s : Shared) (act : Activity) (draw : Draw) : Shared × Activity :=
  match act with
  | .idle => (s, .idle)
  | .gettingPacket call =>
    match getPacket env s.db call.packetId with
    | .error e => finish s call (.error e)
    | .ok packet => (s, .checkingPrior call packet)
  | .checkingPrior call packet =>
    match (appliedByTime s.db call.packetId).head? with
    | some prior => afterPrior s call packet prior
    | none => rejectOr s call packet (roomBindingFailure packet.payload call.roomBinding call.targetSessionId)
        (.checkingExpiry call packet)
  | .checkingExpiry call packet =>
    rejectOr s call packet (if packet.payload.expiresAtMs ≤ draw.nowMs then some "continuation_expired" else none)
      (.gettingTarget call packet)
  | .gettingTarget call packet =>
    rejectOr s call packet (targetFailure packet (s.db.getSession call.targetSessionId)) (.countingTurns call packet)
  | .countingTurns call packet =>
    rejectOr s call packet
      (if totalTurnCount s.db call.targetSessionId ≠ 0 then some "continuation_target_not_empty" else none)
      (.findingApplied call packet)
  | .findingApplied call packet =>
    rejectOr s call packet
      (if appliedIn s.db call.targetSessionId ≠ [] then some "continuation_target_already_initialized" else none)
      (.gettingRefs call packet)
  | .gettingRefs call packet =>
    match s.db.getSession call.targetSessionId with
    | none => finish s call (.error .assertion)
    | some target => rejectOr s call packet (refsFailure env.rt packet.payload target) (.applying call packet)
  | .applying call packet =>
    match appendEvent env.rt s.db (packet.stored.appliedEvent call.targetSessionId draw.freshId draw.now) with
    | .ok (db, eventId) =>
      finish { s with db := db } call (.ok (applyResult packet call.targetSessionId (some eventId) .applied))
    | .error .integrityError => (s, .rereading call packet)
    | .error e => finish s call (.error (.store e))
  | .rereading call packet =>
    match (appliedByTime s.db packet.packetId).head? with
    | some prior => afterPrior s call packet prior
    | none => finish s call (.error (.store .integrityError))
  | .rejecting call packet reason =>
    match appendEvent env.rt s.db (rejectedEvent packet call.targetSessionId reason draw) with
    | .ok (db, _) =>
      finish { s with db := db } call (.ok (applyResult packet call.targetSessionId none .rejected (some reason)))
    | .error e => finish s call (.error (.store e))

def processes : Threads Shared Activity ApplyCall Draw where
  isIdle := Activity.isIdle
  begin := begin
  next := next env

end Steps

section Append

variable {rt : Runtime} {db db' : SessionDb} {a : AppendEvent} {name : String}

/-- Names of events that get no derived id, no derived task and no usage. -/
def IsPlain (name : String) : Prop :=
  name ∉ "task_plan.step_started" :: "llm.call.completed" :: "llm.call.failed" :: toolTranscriptEvents

/-- The event of `append_event`, for a plain name. -/
def plainEvent (rt : Runtime) (a : AppendEvent) (name : String) : NewEvent :=
  a.event rt name a.payloadObj none (traceField rt a.trace "task_id" a.taskId)

theorem appendEvent_plain (hname : validatedEventName a.type a.eventType = .ok name) (hplain : IsPlain name) :
    appendEvent rt db a = (require (db.hasSession a.sessionId) (.valueError ("session not found: " ++ a.sessionId)) >>=
      fun _ => insertSessionEvent db (plainEvent rt a name) >>= fun db₁ =>
        .ok (db₁.touchSession a.sessionId a.now, (plainEvent rt a name).eventId)) := by
  simp only [IsPlain, toolTranscriptEvents, List.mem_cons, List.not_mem_nil, or_false, not_or] at hplain
  obtain ⟨hstep, hcompleted, hfailed, hrequested, hdone, hblocked⟩ := hplain
  have hprepare : prepareEvent rt db a.sessionId name a.payloadObj (orText a.parentEventId a.parentId)
      (traceField rt a.trace "trace_id" a.traceId) = .ok (a.payloadObj, none) := by
    simp [prepareEvent, llmEventId, isCanonicalToolEvent, toolTranscriptEvents, hcompleted, hfailed, hrequested,
      hdone, hblocked]
  have hbackfill : ∀ db₁, backfillRunUsage rt db₁ name a.payloadObj = .ok db₁ := by
    intro db₁
    rw [backfillRunUsage]
    split
    · rw [if_neg (fun h => hcompleted h.1)]
    · rfl
  have hexisted : eventExisted db none = false := rfl
  rw [appendEvent, hname]
  simp only [bind, Except.bind, hprepare, writeEvent, eventTaskId, hstep, if_false, hexisted, hbackfill,
    Bool.cond_false]
  rfl

theorem mem_applied {e : SessionEventRow} {packetId : String} : e ∈ applied db packetId ↔
    e ∈ db.sessionEvents ∧ e.parentEventId = some packetId ∧ e.eventType = "session.continuation.applied" := by
  simp [applied, isApplied]

theorem uniqueEvent_applied {e : NewEvent} (htype : e.eventType = "session.continuation.applied") {packetId : String}
    (hparent : e.parentEventId = some packetId) : uniqueEvent db e = true ↔ applied db packetId = [] := by
  rw [uniqueEvent, Bool.not_eq_true', List.any_eq_false, List.eq_nil_iff_forall_not_mem]
  constructor
  · intro h e' he'
    obtain ⟨hmem, hparent', htype'⟩ := mem_applied.mp he'
    refine h e' hmem ?_
    simp [htype, hparent, hparent', htype']
  · intro h e' hmem hmatch
    simp only [htype, hparent, Option.isSome_some, Bool.and_true, Bool.or_eq_true, Bool.and_eq_true,
      decide_eq_true_eq] at hmatch
    rcases hmatch with hmatch | hmatch
    · exact h e' (mem_applied.mpr ⟨hmem, hmatch.2, hmatch.1.2⟩)
    · exact absurd hmatch.1.1.1.1 (by decide)

theorem uniqueEvent_of_ne {e : NewEvent} (happlied : e.eventType ≠ "session.continuation.applied")
    (hstep : e.eventType ≠ "task_plan.step_started") : uniqueEvent db e = true := by
  simp [uniqueEvent, happlied, hstep]

/-- More events, and the same sessions. -/
structure Extends (db db' : SessionDb) : Prop where
  events : db.sessionEvents <+: db'.sessionEvents
  hasSession : ∀ sid, db'.hasSession sid = db.hasSession sid

theorem Extends.refl (db : SessionDb) : Extends db db := ⟨List.prefix_rfl, fun _ => rfl⟩

theorem Extends.getEventById (h : Extends db db') {id : String} {e : SessionEventRow}
    (he : SessionEventWrites.getEventById db id = some e) : SessionEventWrites.getEventById db' id = some e := by
  obtain ⟨rows, hrows⟩ := h.events
  rw [SessionEventWrites.getEventById, lookup] at he ⊢
  rw [← hrows, List.find?_append, he]
  rfl

theorem Extends.getPacket {env : ContinuationEnv} (h : Extends db db') {packetId : String}
    {packet : SessionContinuationPacket} (hpacket : ContinuationApply.getPacket env db packetId = .ok packet) :
    ContinuationApply.getPacket env db' packetId = .ok packet := by
  rw [ContinuationApply.getPacket] at hpacket ⊢
  cases he : SessionEventWrites.getEventById db packetId with
  | none =>
    rw [he] at hpacket
    cases hpacket
  | some e =>
    rw [he] at hpacket
    rw [h.getEventById he]
    exact hpacket

theorem Extends.applied (h : Extends db db') (packetId : String) :
    ContinuationApply.applied db packetId <+: ContinuationApply.applied db' packetId := h.events.filter _

theorem getPacket_ok {env : ContinuationEnv} {packetId : String} {packet : SessionContinuationPacket}
    (h : getPacket env db packetId = .ok packet) : packet.packetId = packetId ∧ packetId ≠ "" ∧
      ∃ e ∈ db.sessionEvents, getEventById db packetId = some e ∧ e.sessionId = packet.sourceSessionId := by
  rw [getPacket] at h
  split at h
  · cases h
  · next e he =>
    split at h
    · cases h
    · split at h
      · cases h
      · next payload _ =>
        simp only at h
        split at h
        · next hvalid =>
          obtain rfl := Except.ok.inj h
          obtain ⟨hmem, hid⟩ := lookup_some he
          have hne : e.eventId ≠ "" := by
            simp only [packetValid, Bool.and_eq_true, decide_eq_true_eq] at hvalid
            exact hvalid.1.1.1.1
          exact ⟨hid, hid ▸ hne, e, hmem, he, rfl⟩
        · cases h

/-- An event of a continuation packet, as `apply` appends it. -/
structure IsContinuation (a : AppendEvent) (name packetId : String) : Prop where
  validName : validatedEventName a.type a.eventType = .ok name
  kind : name ∈ ["session.continuation.applied", "session.continuation.rejected", "session.continuation.expired"]
  parent : a.parentEventId = some packetId
  packet : packetId ≠ ""

theorem isContinuation_appliedEvent {packet : SessionContinuationPacket} (hpacket : packet.packetId ≠ "")
    (target freshId : String) (now : DateTime) :
    IsContinuation (packet.stored.appliedEvent target freshId now) "session.continuation.applied" packet.packetId := by
  refine ⟨?_, by decide, rfl, hpacket⟩
  change validatedEventName none (some "session.continuation.applied") = .ok "session.continuation.applied"
  decide +kernel

theorem isContinuation_rejectedEvent {packet : SessionContinuationPacket} (hpacket : packet.packetId ≠ "")
    (target reason : String) (draw : Draw) : ∃ name, name ≠ "session.continuation.applied" ∧
      IsContinuation (rejectedEvent packet target reason draw) name packet.packetId := by
  by_cases hreason : reason = "continuation_expired"
  · refine ⟨"session.continuation.expired", by decide, ?_, by decide, rfl, hpacket⟩
    simp only [rejectedEvent, if_pos hreason]
    decide +kernel
  · refine ⟨"session.continuation.rejected", by decide, ?_, by decide, rfl, hpacket⟩
    simp only [rejectedEvent, if_neg hreason]
    decide +kernel

namespace IsContinuation

variable {packetId : String}

theorem isPlain (h : IsContinuation a name packetId) : IsPlain name := by
  have hall : ∀ n ∈ ["session.continuation.applied", "session.continuation.rejected", "session.continuation.expired"],
      n ∉ "task_plan.step_started" :: "llm.call.completed" :: "llm.call.failed" :: toolTranscriptEvents := by decide
  exact hall name h.kind

theorem parentEventId (h : IsContinuation a name packetId) (rt : Runtime) :
    (plainEvent rt a name).parentEventId = some packetId := by
  simp [plainEvent, AppendEvent.event, orText, h.parent, h.packet]

theorem eventId (rt : Runtime) (a : AppendEvent) (name : String) : (plainEvent rt a name).eventId = a.freshId := by
  simp [plainEvent, AppendEvent.event, orText]

theorem uniqueEvent_iff (h : IsContinuation a name packetId) (rt : Runtime) : uniqueEvent db (plainEvent rt a name) = true ↔
    (name = "session.continuation.applied" → applied db packetId = []) := by
  by_cases hname : name = "session.continuation.applied"
  · rw [uniqueEvent_applied hname (h.parentEventId rt)]
    simp [hname]
  · have hstep : name ≠ "task_plan.step_started" := fun hstep => h.isPlain (by simp [hstep])
    have hunique : uniqueEvent db (plainEvent rt a name) = true := uniqueEvent_of_ne hname hstep
    simp [hunique, hname]

theorem append_ok (h : IsContinuation a name packetId) {id : String} (happend : appendEvent rt db a = .ok (db', id)) :
    (∀ sid, db'.hasSession sid = db.hasSession sid) ∧ (db'.sessionEvents = db.sessionEvents ∨
      ∃ row : SessionEventRow, db'.sessionEvents = db.sessionEvents ++ [row] ∧ row.eventId = id ∧ row.sessionId = a.sessionId ∧
        row.eventType = name ∧ row.parentEventId = some packetId ∧ db.hasSession a.sessionId = true ∧
        (name = "session.continuation.applied" → applied db packetId = [])) := by
  rw [appendEvent_plain h.validName h.isPlain] at happend
  obtain ⟨_, hsession, happend⟩ := bind_eq_ok.mp happend
  obtain ⟨db₁, hinsert, happend⟩ := bind_eq_ok.mp happend
  obtain ⟨rfl, rfl⟩ := Prod.mk.inj (Except.ok.inj happend)
  rw [insertSessionEvent] at hinsert
  split at hinsert
  · split at hinsert
    · obtain rfl := Except.ok.inj hinsert
      exact ⟨fun sid => SessionDb.hasSession_touchSession .., .inl rfl⟩
    · cases hinsert
  · split at hinsert
    · next hchecks =>
      obtain rfl := Except.ok.inj hinsert
      refine ⟨fun sid => SessionDb.hasSession_touchSession .., .inr ⟨_, rfl, rfl, rfl, rfl, h.parentEventId rt, ?_, ?_⟩⟩
      · exact require_eq_ok.mp hsession
      · exact (h.uniqueEvent_iff rt).mp (Bool.and_eq_true_iff.mp hchecks).2
    · cases hinsert

theorem append_fresh (h : IsContinuation a name packetId) (rt : Runtime) (hfresh : getEventById db a.freshId = none)
    (hsession : db.hasSession a.sessionId = true) (hparent : (getEventById db packetId).isSome = true) :
    (∃ db' row, appendEvent rt db a = .ok (db', a.freshId) ∧ db'.sessionEvents = db.sessionEvents ++ [row] ∧
      row.eventId = a.freshId ∧ row.sessionId = a.sessionId ∧ row.eventType = name ∧
      row.parentEventId = some packetId) ∨
    name = "session.continuation.applied" ∧ applied db packetId ≠ [] ∧
      appendEvent rt db a = .error .integrityError := by
  have hparentExists : parentExists db (plainEvent rt a name) = true := by
    simp [parentExists, h.parentEventId rt, hparent]
  have hid := eventId rt a name
  have hnone : getEventById db (plainEvent rt a name).eventId = none := hid ▸ hfresh
  rw [appendEvent_plain h.validName h.isPlain]
  by_cases hunique : uniqueEvent db (plainEvent rt a name) = true
  · refine .inl ⟨{ db with sessionEvents := db.sessionEvents ++
      [(plainEvent rt a name).row (latestEventSeq db a.sessionId + 1)] }.touchSession a.sessionId a.now,
      (plainEvent rt a name).row (latestEventSeq db a.sessionId + 1), ?_, rfl, hid, rfl, rfl, h.parentEventId rt⟩
    have hchecks : (db.hasSession (plainEvent rt a name).sessionId && parentExists db (plainEvent rt a name) &&
        uniqueEvent db (plainEvent rt a name)) = true := by
      rw [hparentExists, hunique]
      simpa [plainEvent, AppendEvent.event] using hsession
    simp only [require, hsession, if_true, bind, Except.bind, insertSessionEvent, hid, hfresh, hchecks]
    rfl
  · refine .inr ?_
    have hnot := mt (h.uniqueEvent_iff rt).mpr hunique
    rw [Classical.not_imp] at hnot
    refine ⟨hnot.1, hnot.2, ?_⟩
    have hchecks : (db.hasSession (plainEvent rt a name).sessionId && parentExists db (plainEvent rt a name) &&
        uniqueEvent db (plainEvent rt a name)) = false := by
      rw [Bool.eq_false_of_not_eq_true hunique, Bool.and_false]
    simp only [require, hsession, if_true, bind, Except.bind, insertSessionEvent, hnone, hchecks]
    rfl

theorem append_extends (h : IsContinuation a name packetId) {id : String} (happend : appendEvent rt db a = .ok (db', id)) :
    Extends db db' := by
  obtain ⟨hsessions, hevents | ⟨row, hevents, -⟩⟩ := h.append_ok happend
  · exact ⟨hevents ▸ List.prefix_rfl, hsessions⟩
  · exact ⟨⟨[row], hevents.symm⟩, hsessions⟩

theorem applied_append (h : IsContinuation a name packetId) {id : String}
    (happend : appendEvent rt db a = .ok (db', id)) (q : String) : applied db' q = applied db q ∨
      name = "session.continuation.applied" ∧ q = packetId ∧ applied db q = [] ∧
        ∃ row, applied db' q = [row] ∧ row.eventId = id ∧ row.sessionId = a.sessionId := by
  obtain ⟨-, hevents | ⟨row, hevents, hid, hsid, htype, hparent, -, hempty⟩⟩ := h.append_ok happend
  · left
    rw [applied, hevents, applied]
  · by_cases hrow : isApplied q row = true
    · right
      simp only [isApplied, hparent, htype, Option.some.injEq, Bool.and_eq_true, decide_eq_true_eq] at hrow
      obtain ⟨rfl, hname⟩ := hrow
      refine ⟨hname, rfl, hempty hname, row, ?_, hid, hsid⟩
      have hsplit : applied db' packetId = applied db packetId ++ [row] := by
        rw [applied, hevents, List.filter_append, applied, List.filter_cons_of_pos (by simp [isApplied, hparent, htype, hname])]
        rfl
      rw [hsplit, hempty hname, List.nil_append]
    · left
      rw [applied, hevents, List.filter_append, List.filter_cons_of_neg hrow, applied]
      simp

end IsContinuation

end Append

def Activity.call : Activity → Option ApplyCall
  | .idle => none
  | .gettingPacket call | .checkingPrior call _ | .checkingExpiry call _ | .gettingTarget call _
  | .countingTurns call _ | .findingApplied call _ | .gettingRefs call _ | .applying call _ | .rereading call _
  | .rejecting call _ _ => some call

def Activity.packet : Activity → Option SessionContinuationPacket
  | .idle | .gettingPacket _ => none
  | .checkingPrior _ packet | .checkingExpiry _ packet | .gettingTarget _ packet | .countingTurns _ packet
  | .findingApplied _ packet | .gettingRefs _ packet | .applying _ packet | .rereading _ packet
  | .rejecting _ packet _ => some packet

def Activity.stepsLeft : Activity → ℕ
  | .idle => 0
  | .rejecting _ _ _ => 1
  | .rereading _ _ => 2
  | .applying _ _ => 3
  | .gettingRefs _ _ => 4
  | .findingApplied _ _ => 5
  | .countingTurns _ _ => 6
  | .gettingTarget _ _ => 7
  | .checkingExpiry _ _ => 8
  | .checkingPrior _ _ => 9
  | .gettingPacket _ => 10

theorem stepsLeft_rejectOr (s : Shared) (call : ApplyCall) (packet : SessionContinuationPacket) (failure : Option String)
    {act : Activity} {n : ℕ} (hn : 1 < n) (hact : act.stepsLeft < n) :
    (rejectOr s call packet failure act).2.stepsLeft < n := by
  cases failure with
  | some reason => exact hn
  | none => exact hact

theorem stepsLeft_afterPrior (s : Shared) (call : ApplyCall) (packet : SessionContinuationPacket)
    (prior : SessionEventRow) {n : ℕ} (hn : 1 < n) : (afterPrior s call packet prior).2.stepsLeft < n := by
  rw [afterPrior]
  split
  · exact Nat.zero_lt_of_lt hn
  · exact hn

theorem stepsLeft_next (env : ContinuationEnv) (s : Shared) {act : Activity} (draw : Draw) (hact : act.isIdle = false) :
    (next env s act draw).2.stepsLeft < act.stepsLeft := by
  cases act with
  | idle => cases hact
  | gettingPacket call =>
    rw [next]
    split
    · exact Nat.succ_pos 9
    · exact Nat.lt_succ_self 9
  | checkingPrior call packet =>
    rw [next]
    split
    · exact stepsLeft_afterPrior _ _ _ _ (show 1 < 9 by omega)
    · exact stepsLeft_rejectOr _ _ _ _ (show 1 < 9 by omega) (Nat.lt_succ_self 8)
  | checkingExpiry call packet => exact stepsLeft_rejectOr _ _ _ _ (show 1 < 8 by omega) (Nat.lt_succ_self 7)
  | gettingTarget call packet => exact stepsLeft_rejectOr _ _ _ _ (show 1 < 7 by omega) (Nat.lt_succ_self 6)
  | countingTurns call packet => exact stepsLeft_rejectOr _ _ _ _ (show 1 < 6 by omega) (Nat.lt_succ_self 5)
  | findingApplied call packet => exact stepsLeft_rejectOr _ _ _ _ (show 1 < 5 by omega) (Nat.lt_succ_self 4)
  | gettingRefs call packet =>
    rw [next]
    split
    · exact Nat.succ_pos 3
    · exact stepsLeft_rejectOr _ _ _ _ (show 1 < 4 by omega) (Nat.lt_succ_self 3)
  | applying call packet =>
    rw [next]
    split
    · exact Nat.succ_pos 2
    · exact Nat.lt_succ_self 2
    · exact Nat.succ_pos 2
  | rereading call packet =>
    rw [next]
    split
    · exact stepsLeft_afterPrior _ _ _ _ (show 1 < 2 by omega)
    · exact Nat.succ_pos 1
  | rejecting call packet reason =>
    rw [next]
    split <;> exact Nat.one_pos

theorem next_db (env : ContinuationEnv) (s : Shared) (act : Activity) (draw : Draw)
    (hvalid : ∀ pk, act.packet = some pk → pk.packetId ≠ "") :
    (next env s act draw).1.db = s.db ∨
    ∃ a name pk id, act.packet = some pk ∧ IsContinuation a name pk.packetId ∧
      appendEvent env.rt s.db a = .ok ((next env s act draw).1.db, id) ∧
      (name = "session.continuation.applied" → ∃ call, act = .applying call pk ∧ a.sessionId = call.targetSessionId) := by
  have hreject : ∀ call packet failure act', (rejectOr s call packet failure act').1.db = s.db := by
    intro call packet failure act'
    cases failure <;> rfl
  have hprior : ∀ call packet prior, (afterPrior s call packet prior).1.db = s.db := by
    intro call packet prior
    rw [afterPrior]
    split <;> rfl
  cases act with
  | idle => exact .inl rfl
  | gettingPacket call =>
    rw [next]
    split <;> exact .inl rfl
  | checkingPrior call packet =>
    rw [next]
    split
    · exact .inl (hprior ..)
    · exact .inl (hreject ..)
  | checkingExpiry call packet => exact .inl (hreject ..)
  | gettingTarget call packet => exact .inl (hreject ..)
  | countingTurns call packet => exact .inl (hreject ..)
  | findingApplied call packet => exact .inl (hreject ..)
  | gettingRefs call packet =>
    rw [next]
    split
    · exact .inl rfl
    · exact .inl (hreject ..)
  | applying call packet =>
    have hcont := isContinuation_appliedEvent (hvalid packet rfl) call.targetSessionId draw.freshId draw.now
    rw [next]
    split
    · next db id happend => exact .inr ⟨_, _, packet, id, rfl, hcont, happend, fun _ => ⟨call, rfl, rfl⟩⟩
    · exact .inl rfl
    · exact .inl rfl
  | rereading call packet =>
    rw [next]
    split
    · exact .inl (hprior ..)
    · exact .inl rfl
  | rejecting call packet reason =>
    obtain ⟨name, hname, hcont⟩ :=
      isContinuation_rejectedEvent (hvalid packet rfl) call.targetSessionId reason draw
    rw [next]
    split
    · next db id happend => exact .inr ⟨_, name, packet, id, rfl, hcont, happend, fun happlied => absurd happlied hname⟩
    · exact .inl rfl

end OpenMinion.ContinuationApply
