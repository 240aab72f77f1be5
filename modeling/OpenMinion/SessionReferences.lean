import OpenMinion.ReferentialDeletes
import OpenMinion.SessionEventWrites

/-!
# References between the rows of sessions

The foreign keys of the session tables, and the writes that lead across sessions: an applied continuation names a
packet event of its source session, a carried message ref a run of the session it is carried from.
-/
namespace OpenMinion.SessionReferences
open IsoTimestamps JsonValues KeyedTables PythonText ReferentialDeletes SessionEventWrites SessionTables

/-- The tables with rows of a session, in the order of `_purge_session`. -/
inductive Table where
  | sessionRetentionHolds
  | sessionShares
  | messageRefs
  | runRecords
  | seedBundles
  | compressionCheckpoints
  | promptContexts
  | sessionSnapshots
  | sessionSummaries
  | summaryDeltas
  | workingState
  | turns
  | sessionEvents
  | events
  | summaries
  | sessionTurnLeases
  | sessions
  deriving DecidableEq

def purgeTables : List Table :=
  [.sessionRetentionHolds, .sessionShares, .messageRefs, .runRecords, .seedBundles, .compressionCheckpoints,
    .promptContexts, .sessionSnapshots, .sessionSummaries, .summaryDeltas, .workingState, .turns, .sessionEvents,
    .events, .summaries, .sessionTurnLeases, .sessions]

def rowSessions (db : SessionDb) : Table → List String
  | .sessionRetentionHolds => db.retentionHolds.map RetentionHoldRow.sessionId
  | .sessionShares => db.sessionShares.map SessionShareRow.sessionId
  | .messageRefs => db.messageRefs.map MessageRefRow.sessionId
  | .runRecords => db.runRecords.map RunRecordRow.sessionId
  | .seedBundles => db.seedBundles.map SeedBundleRow.sessionId
  | .compressionCheckpoints => db.compressionCheckpoints.map CompressionCheckpointRow.sessionId
  | .promptContexts => db.promptContexts.map PromptContextRow.sessionId
  | .sessionSnapshots => db.sessionSnapshots.map SessionSnapshotRow.sessionId
  | .sessionSummaries => db.sessionSummaries.map SessionSummaryRow.sessionId
  | .summaryDeltas => db.summaryDeltas.map SummaryDeltaRow.sessionId
  | .workingState => db.workingState.map WorkingStateRow.sessionId
  | .turns => db.turns.map TurnRow.sessionId
  | .sessionEvents => db.sessionEvents.map SessionEventRow.sessionId
  | .events => db.events.map LegacyEventRow.sessionId
  | .summaries => db.summaries.map SummaryBaseRow.sessionId
  | .sessionTurnLeases => db.turnLeases.map TurnLeaseRow.sessionId
  | .sessions => db.sessions.map SessionRow.sessionId

/-- `DELETE FROM table WHERE session_id = sid`. -/
def deleteFrom (db : SessionDb) (table : Table) (sid : String) : SessionDb :=
  match table with
  | .sessionRetentionHolds => { db with retentionHolds := deleteWhere (fun r => r.sessionId = sid) db.retentionHolds }
  | .sessionShares => { db with sessionShares := deleteWhere (fun r => r.sessionId = sid) db.sessionShares }
  | .messageRefs => { db with messageRefs := deleteWhere (fun r => r.sessionId = sid) db.messageRefs }
  | .runRecords => { db with runRecords := deleteWhere (fun r => r.sessionId = sid) db.runRecords }
  | .seedBundles => { db with seedBundles := deleteWhere (fun r => r.sessionId = sid) db.seedBundles }
  | .compressionCheckpoints =>
    { db with compressionCheckpoints := deleteWhere (fun r => r.sessionId = sid) db.compressionCheckpoints }
  | .promptContexts => { db with promptContexts := deleteWhere (fun r => r.sessionId = sid) db.promptContexts }
  | .sessionSnapshots => { db with sessionSnapshots := deleteWhere (fun r => r.sessionId = sid) db.sessionSnapshots }
  | .sessionSummaries => { db with sessionSummaries := deleteWhere (fun r => r.sessionId = sid) db.sessionSummaries }
  | .summaryDeltas => { db with summaryDeltas := deleteWhere (fun r => r.sessionId = sid) db.summaryDeltas }
  | .workingState => { db with workingState := deleteWhere (fun r => r.sessionId = sid) db.workingState }
  | .turns => { db with turns := deleteWhere (fun r => r.sessionId = sid) db.turns }
  | .sessionEvents => { db with sessionEvents := deleteWhere (fun r => r.sessionId = sid) db.sessionEvents }
  | .events => { db with events := deleteWhere (fun r => r.sessionId = sid) db.events }
  | .summaries => { db with summaries := deleteWhere (fun r => r.sessionId = sid) db.summaries }
  | .sessionTurnLeases => { db with turnLeases := deleteWhere (fun r => r.sessionId = sid) db.turnLeases }
  | .sessions => { db with sessions := deleteWhere (fun r => r.sessionId = sid) db.sessions }

/-- The foreign keys of `schema.py`; none has an action on delete. -/
inductive ForeignKey where
  /-- The column `session_id` of a table. -/
  | session (child : Table)
  /-- `session_events.parent_event_id`. -/
  | eventParent
  /-- `events.parent_id`. -/
  | legacyEventParent
  /-- `run_records.prompt_context_id`. -/
  | promptContext
  /-- `message_refs.run_id`. -/
  | run
  deriving DecidableEq

namespace ForeignKey

def all : List ForeignKey :=
  (purgeTables.filter (· ≠ .sessions)).map .session ++ [.eventParent, .legacyEventParent, .promptContext, .run]

def child : ForeignKey → Table
  | .session child => child
  | .eventParent => .sessionEvents
  | .legacyEventParent => .events
  | .promptContext => .runRecords
  | .run => .messageRefs

def parent : ForeignKey → Table
  | .session _ => .sessions
  | .eventParent => .sessionEvents
  | .legacyEventParent => .events
  | .promptContext => .promptContexts
  | .run => .runRecords

end ForeignKey

/-- The references of a foreign key that are not `NULL`, with the session of their row. -/
def references (db : SessionDb) : ForeignKey → List (String × String)
  | .session child => (rowSessions db child).map fun s => (s, s)
  | .eventParent => db.sessionEvents.filterMap fun e => e.parentEventId.map fun id => (e.sessionId, id)
  | .legacyEventParent => db.events.filterMap fun e => e.parentId.map fun id => (e.sessionId, id)
  | .promptContext => db.runRecords.filterMap fun r => r.promptContextId.map fun id => (r.sessionId, id)
  | .run => db.messageRefs.filterMap fun m => m.runId.map fun id => (m.sessionId, id)

def keys (db : SessionDb) : ForeignKey → List (String × String)
  | .session _ => db.sessions.map fun r => (r.sessionId, r.sessionId)
  | .eventParent => db.sessionEvents.map fun e => (e.eventId, e.sessionId)
  | .legacyEventParent => db.events.map fun e => (e.eventId, e.sessionId)
  | .promptContext => db.promptContexts.map fun c => (c.promptContextId, c.sessionId)
  | .run => db.runRecords.map fun r => (r.runId, r.sessionId)

section Deletes

variable {Row α : Type} {sessionOf : Row → String} {sid : String} {rows : List Row}

theorem map_deleteWhere {f : Row → α} {g : α → String} (h : ∀ r, g (f r) = sessionOf r) :
    (deleteWhere (fun r => sessionOf r = sid) rows).map f = (rows.map f).filter fun a => g a ≠ sid := by
  rw [deleteWhere, List.filter_map]
  congr 2
  funext r
  simp [h]

theorem filterMap_deleteWhere {f : Row → Option α} {g : α → String} (h : ∀ r, ∀ a ∈ f r, g a = sessionOf r) :
    (deleteWhere (fun r => sessionOf r = sid) rows).filterMap f = (rows.filterMap f).filter fun a => g a ≠ sid := by
  rw [deleteWhere, List.filter_filterMap, List.filterMap_filter]
  congr 1
  funext r
  cases hr : f r with
  | none => simp
  | some a => simp [h r a hr, Option.filter]

end Deletes

theorem rowSessions_deleteFrom (db : SessionDb) (t : Table) (sid : String) (child : Table) :
    rowSessions (deleteFrom db t sid) child =
      if child = t then (rowSessions db child).filter fun s => s ≠ sid else rowSessions db child := by
  cases t <;> cases child <;> first | rfl | exact map_deleteWhere fun _ => rfl

theorem references_deleteFrom (db : SessionDb) (t : Table) (sid : String) (fk : ForeignKey) :
    references (deleteFrom db t sid) fk =
      if fk.child = t then (references db fk).filter fun r => r.1 ≠ sid else references db fk := by
  cases fk with
  | session child =>
    simp only [references, rowSessions_deleteFrom]
    by_cases ht : child = t
    · rw [if_pos ht, if_pos (show (ForeignKey.session child).child = t from ht), List.filter_map]
      rfl
    · rw [if_neg ht, if_neg (show ¬ (ForeignKey.session child).child = t from ht)]
  | eventParent =>
    cases t with
    | sessionEvents => exact filterMap_deleteWhere fun r a ha => by obtain ⟨id, -, rfl⟩ := Option.map_eq_some_iff.mp ha; rfl
    | _ => rfl
  | legacyEventParent =>
    cases t with
    | events => exact filterMap_deleteWhere fun r a ha => by obtain ⟨id, -, rfl⟩ := Option.map_eq_some_iff.mp ha; rfl
    | _ => rfl
  | promptContext =>
    cases t with
    | runRecords => exact filterMap_deleteWhere fun r a ha => by obtain ⟨id, -, rfl⟩ := Option.map_eq_some_iff.mp ha; rfl
    | _ => rfl
  | run =>
    cases t with
    | messageRefs => exact filterMap_deleteWhere fun r a ha => by obtain ⟨id, -, rfl⟩ := Option.map_eq_some_iff.mp ha; rfl
    | _ => rfl

theorem keys_deleteFrom (db : SessionDb) (t : Table) (sid : String) (fk : ForeignKey) :
    keys (deleteFrom db t sid) fk =
      if fk.parent = t then (keys db fk).filter fun k => k.2 ≠ sid else keys db fk := by
  cases fk <;> cases t <;> first | rfl | exact map_deleteWhere fun _ => rfl

def sessionSchema : Schema SessionDb Table String String ForeignKey where
  foreignKeys := ForeignKey.all
  child := ForeignKey.child
  parent := ForeignKey.parent
  references := references
  keys := keys
  deleteFrom := deleteFrom
  references_deleteFrom := references_deleteFrom
  keys_deleteFrom := keys_deleteFrom

/-- The order of `_purge_session` suits all foreign keys. -/
theorem purgeTables_childrenFirst : sessionSchema.ChildrenFirst purgeTables := by
  refine ⟨by decide, ?_⟩
  change ∀ fk ∈ ForeignKey.all, fk.parent ∈ purgeTables ∧ purgeTables.idxOf fk.child ≤ purgeTables.idxOf fk.parent
  decide

def rowsOf (db : SessionDb) (sid : String) : SessionDb where
  sessions := db.sessions.filter fun r => r.sessionId = sid
  turns := db.turns.filter fun r => r.sessionId = sid
  events := db.events.filter fun r => r.sessionId = sid
  sessionEvents := db.sessionEvents.filter fun r => r.sessionId = sid
  workingState := db.workingState.filter fun r => r.sessionId = sid
  summaries := db.summaries.filter fun r => r.sessionId = sid
  summaryDeltas := db.summaryDeltas.filter fun r => r.sessionId = sid
  sessionSnapshots := db.sessionSnapshots.filter fun r => r.sessionId = sid
  sessionSummaries := db.sessionSummaries.filter fun r => r.sessionId = sid
  turnLeases := db.turnLeases.filter fun r => r.sessionId = sid
  sessionShares := db.sessionShares.filter fun r => r.sessionId = sid
  retentionHolds := db.retentionHolds.filter fun r => r.sessionId = sid
  promptContexts := db.promptContexts.filter fun r => r.sessionId = sid
  compressionCheckpoints := db.compressionCheckpoints.filter fun r => r.sessionId = sid
  seedBundles := db.seedBundles.filter fun r => r.sessionId = sid
  runRecords := db.runRecords.filter fun r => r.sessionId = sid
  messageRefs := db.messageRefs.filter fun r => r.sessionId = sid

theorem filter_deleteWhere_of_ne {Row : Type} {sessionOf : Row → String} {sid o : String} {rows : List Row}
    (h : sid ≠ o) : ((deleteWhere (fun r => sessionOf r = o) rows).filter fun r => sessionOf r = sid) =
      rows.filter fun r => sessionOf r = sid := by
  rw [deleteWhere, List.filter_filter]
  apply List.filter_congr
  intro r _
  by_cases hr : sessionOf r = sid
  · simp [hr, h]
  · simp [hr]

theorem rowsOf_deleted_of_ne (db : SessionDb) {sid o : String} (h : sid ≠ o) (ts : List Table) :
    rowsOf (sessionSchema.deleted db o ts) sid = rowsOf db sid := by
  induction ts generalizing db with
  | nil => rfl
  | cons t ts ih =>
    have hstep : rowsOf (deleteFrom db t o) sid = rowsOf db sid := by
      cases t <;> simp only [deleteFrom, rowsOf, filter_deleteWhere_of_ne h]
    exact (ih (deleteFrom db t o)).trans hstep

private theorem filter_eq_nil_of_notMem {Row : Type} {sessionOf : Row → String} {sid : String} {rows : List Row}
    (h : sid ∉ rows.map sessionOf) : (rows.filter fun r => sessionOf r = sid) = [] := by
  rw [List.filter_eq_nil_iff]
  intro r hr hsid
  exact h (List.mem_map.mpr ⟨r, hr, of_decide_eq_true hsid⟩)

theorem rowsOf_eq_empty {db : SessionDb} {sid : String} (h : ∀ t, sid ∉ rowSessions db t) : rowsOf db sid = {} := by
  apply SessionDb.ext
  · exact filter_eq_nil_of_notMem (h .sessions)
  · exact filter_eq_nil_of_notMem (h .turns)
  · exact filter_eq_nil_of_notMem (h .events)
  · exact filter_eq_nil_of_notMem (h .sessionEvents)
  · exact filter_eq_nil_of_notMem (h .workingState)
  · exact filter_eq_nil_of_notMem (h .summaries)
  · exact filter_eq_nil_of_notMem (h .summaryDeltas)
  · exact filter_eq_nil_of_notMem (h .sessionSnapshots)
  · exact filter_eq_nil_of_notMem (h .sessionSummaries)
  · exact filter_eq_nil_of_notMem (h .sessionTurnLeases)
  · exact filter_eq_nil_of_notMem (h .sessionShares)
  · exact filter_eq_nil_of_notMem (h .sessionRetentionHolds)
  · exact filter_eq_nil_of_notMem (h .promptContexts)
  · exact filter_eq_nil_of_notMem (h .compressionCheckpoints)
  · exact filter_eq_nil_of_notMem (h .seedBundles)
  · exact filter_eq_nil_of_notMem (h .runRecords)
  · exact filter_eq_nil_of_notMem (h .messageRefs)

/-- Nothing is left of a session after the statements of `_purge_session`. -/
theorem rowsOf_deleted_self (db : SessionDb) (sid : String) :
    rowsOf (sessionSchema.deleted db sid purgeTables) sid = {} := by
  apply rowsOf_eq_empty
  intro t ht
  have hmem : (sid, sid) ∈ sessionSchema.references (sessionSchema.deleted db sid purgeTables) (.session t) :=
    List.mem_map.mpr ⟨sid, ht, rfl⟩
  have htable : sessionSchema.child (.session t) ∈ purgeTables := by cases t <;> decide
  rw [Schema.references_deleted, if_pos htable] at hmem
  simpa using (List.mem_filter.mp hmem).2

/-- A stored continuation packet; `continuation` is the dump of its payload. -/
structure ContinuationPacket where
  packetId : String
  sourceSessionId : String
  schemaVersion : String := "session_continuation.v1"
  continuation : Dict
  permissionRefs : List String := []

/-- The event of `_append_applied_event`. -/
def ContinuationPacket.appliedEvent (packet : ContinuationPacket) (targetSessionId freshId : String) (now : DateTime) :
    AppendEvent where
  sessionId := targetSessionId
  eventType := some "session.continuation.applied"
  parentEventId := some packet.packetId
  payload := [("packet_id", .str packet.packetId), ("source_session_id", .str packet.sourceSessionId),
    ("schema_version", .str packet.schemaVersion), ("continuation", .dict packet.continuation),
    ("permission_revalidation_required", .bool (!packet.permissionRefs.isEmpty))]
  refs := [("source_event_id", .str packet.packetId), ("source_session_id", .str packet.sourceSessionId)]
  importance := 2
  redaction := some "bounded"
  freshId := freshId
  now := now

/-- Arguments of `add_message_ref`, with the `uuid4` of the ref. -/
structure AddMessageRef where
  sessionId : String
  role : String
  runId : Option String := none
  eventId : Option String := none
  contentRef : Option String := none
  contentInline : Option String := none
  metaJson : Dict := []
  refId : String
  now : DateTime

/-- `COALESCE(MAX(seq), -1) + 1`. -/
def nextRefSeq (db : SessionDb) (sessionId : String) : ℕ :=
  match ((db.messageRefs.filter fun r => r.sessionId = sessionId).map MessageRefRow.seq).max? with
  | some seq => seq + 1
  | none => 0

def AddMessageRef.row (db : SessionDb) (a : AddMessageRef) : MessageRefRow where
  refId := a.refId
  sessionId := a.sessionId
  runId := a.runId
  eventId := a.eventId
  role := a.role
  contentRef := a.contentRef
  contentInline := a.contentInline
  seq := nextRefSeq db a.sessionId
  createdAt := a.now
  metaJson := .dict a.metaJson

def addMessageRef (db : SessionDb) (a : AddMessageRef) : Except StoreError (SessionDb × String) :=
  if db.hasSession a.sessionId && (a.runId.all fun id => db.runRecords.any fun r => r.runId = id) &&
      (lookup MessageRefRow.refId a.refId db.messageRefs).isNone then
    .ok ({ db with messageRefs := db.messageRefs ++ [a.row db] }, a.refId)
  else .error .integrityError

/-- A message ref as `_carry_message_refs` adds it to the child. -/
def carriedRef (source child : String) (row : MessageRefRow) (fresh : String × DateTime) : AddMessageRef where
  sessionId := child
  role := if row.role = "" then "assistant" else row.role
  runId := row.runId
  eventId := row.eventId
  contentRef := row.contentRef
  metaJson := [("source_session_id", .str source), ("source_ref_id", .str row.refId)]
  refId := fresh.1
  now := fresh.2

/-- The loop of `_carry_message_refs`; each ref is a transaction of its own. -/
def carryRows (source child : String) : SessionDb → List (MessageRefRow × String × DateTime) →
    SessionDb × Except StoreError Unit
  | db, [] => (db, .ok ())
  | db, (row, fresh) :: rest =>
    match addMessageRef db (carriedRef source child row fresh) with
    | .error e => (db, .error e)
    | .ok (db', _) => carryRows source child db' rest

def carryMessageRefs (db : SessionDb) (source child : String) (fresh : ℕ → String × DateTime) :
    SessionDb × Except StoreError Unit :=
  let rows := (db.messageRefs.filter fun r => r.sessionId = source).insertionSort fun a b => a.seq ≤ b.seq
  carryRows source child db (rows.zipIdx.map fun (row, i) => (row, fresh i))

theorem addMessageRef_ok {db db' : SessionDb} {a : AddMessageRef} {id : String}
    (h : addMessageRef db a = .ok (db', id)) : db' = { db with messageRefs := db.messageRefs ++ [a.row db] } := by
  rw [addMessageRef] at h
  split at h
  · exact (Prod.mk.inj (Except.ok.inj h)).1.symm
  · cases h

theorem carryRows_eq (source child : String) (db : SessionDb) (items : List (MessageRefRow × String × DateTime)) :
    ∃ new, (carryRows source child db items).1 = { db with messageRefs := db.messageRefs ++ new } := by
  induction items generalizing db with
  | nil => exact ⟨[], by simp [carryRows]⟩
  | cons item items ih =>
    rw [carryRows]
    split
    · exact ⟨[], by simp⟩
    · next db' _ hadd =>
      obtain rfl := addMessageRef_ok hadd
      obtain ⟨new, hnew⟩ := ih { db with messageRefs := db.messageRefs ++ [_] }
      refine ⟨(carriedRef source child item.1 item.2).row db :: new, ?_⟩
      rw [hnew]
      simp

end OpenMinion.SessionReferences
