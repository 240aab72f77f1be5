import OpenMinion.SessionSlices

/-!
# What changes a slice

The rows that the slices of a session are made of, and the writes that change them. A write changes the rows of its own
session only, and adds an event or leaves the latest sequence number.
-/
namespace OpenMinion.SliceStability
open IsoTimestamps JsonValues KeyedTables PythonText ReadPrograms SessionEventWrites SessionSlices SessionStateWrites
open SessionTables

/-- The foreign key of `parent_event_id`. -/
def EventParents (db : SessionDb) : Prop :=
  ∀ e ∈ db.sessionEvents, ∀ parent ∈ e.parentEventId, (getEventById db parent).isSome = true

structure StateRows where
  summary : Option SessionSummaryRow
  snapshots : List SessionSnapshotRow
  workingState : List WorkingStateRow

def stateRows (db : SessionDb) (sessionId : String) : StateRows where
  summary := lookup SessionSummaryRow.sessionId sessionId db.sessionSummaries
  snapshots := db.sessionSnapshots.filter fun r => r.sessionId = sessionId
  workingState := db.workingState.filter fun r => r.sessionId = sessionId

/-- Two databases that show the same slices of a session; events of other sessions may have
been added. -/
structure SameSlice (sessionId : String) (db db' : SessionDb) : Prop where
  session : sliceSession db' sessionId = sliceSession db sessionId
  events : (db'.sessionEvents.filter fun e => e.sessionId = sessionId) =
    db.sessionEvents.filter fun e => e.sessionId = sessionId
  state : stateRows db' sessionId = stateRows db sessionId
  stored : ∀ id e, getEventById db id = some e → getEventById db' id = some e

namespace SameSlice

variable {sid : String} {db db' : SessionDb}

theorem refl (sid : String) (db : SessionDb) : SameSlice sid db db :=
  ⟨rfl, rfl, rfl, fun _ _ h => h⟩

theorem trans (sid : String) (db db' db'' : SessionDb) (h : SameSlice sid db db') (h' : SameSlice sid db' db'') :
    SameSlice sid db db'' where
  session := h'.session.trans h.session
  events := h'.events.trans h.events
  state := h'.state.trans h.state
  stored id e he := h'.stored id e (h.stored id e he)

theorem eventsOf (h : SameSlice sid db db') : eventsOf db' sid = eventsOf db sid := by
  rw [SessionEventWrites.eventsOf, h.events, SessionEventWrites.eventsOf]

theorem summary (h : SameSlice sid db db') :
    lookup SessionSummaryRow.sessionId sid db'.sessionSummaries =
      lookup SessionSummaryRow.sessionId sid db.sessionSummaries := congrArg StateRows.summary h.state

theorem latestSnapshot (h : SameSlice sid db db') : latestSnapshot db' sid = latestSnapshot db sid := by
  have hrows : (db'.sessionSnapshots.filter fun r => r.sessionId = sid) =
      db.sessionSnapshots.filter fun r => r.sessionId = sid := congrArg StateRows.snapshots h.state
  rw [SessionStateWrites.latestSnapshot, List.filter_reverse, hrows, ← List.filter_reverse, SessionStateWrites.latestSnapshot]

theorem latestWorkingState (h : SameSlice sid db db') :
    getLatestWorkingState db' sid = getLatestWorkingState db sid := by
  have hrows : (db'.workingState.filter fun r => r.sessionId = sid) =
      db.workingState.filter fun r => r.sessionId = sid := congrArg StateRows.workingState h.state
  rw [getLatestWorkingState, hrows, getLatestWorkingState]

theorem eventsOfTypes (h : SameSlice sid db db') (types : List String) :
    eventsOfTypes db' sid types = eventsOfTypes db sid types := by
  rw [SessionSlices.eventsOfTypes, h.eventsOf, SessionSlices.eventsOfTypes]

theorem recentToolRows (h : SameSlice sid db db') (limit : ℕ) :
    recentToolRows db' sid limit = recentToolRows db sid limit := by
  rw [SessionSlices.recentToolRows, h.eventsOf, SessionSlices.recentToolRows]

theorem recentTurns (h : SameSlice sid db db') (limit : ℕ) :
    getRecentTurns db' sid limit = getRecentTurns db sid limit := by
  rw [getRecentTurns, h.eventsOfTypes, getRecentTurns]

end SameSlice

def ParentsStored (sid : String) (db : SessionDb) : Prop :=
  ∀ e ∈ db.sessionEvents, e.sessionId = sid → ∀ parent ∈ e.parentEventId, (getEventById db parent).isSome = true

theorem EventParents.stored {db : SessionDb} (h : EventParents db) (sid : String) : ParentsStored sid db :=
  fun e he _ => h e he

theorem ParentsStored.same {sid : String} {db db' : SessionDb} (h : ParentsStored sid db)
    (hsame : SameSlice sid db db') : ParentsStored sid db' := by
  intro e he hsid parent hparent
  have hold : e ∈ db.sessionEvents.filter fun e => e.sessionId = sid := by
    rw [← hsame.events]
    simp [he, hsid]
  obtain ⟨p, hp⟩ := Option.isSome_iff_exists.mp (h e (List.mem_of_mem_filter hold) hsid parent hparent)
  rw [hsame.stored parent p hp]
  rfl

/-- The program gives the same as long as the database shows the same slices. -/
def Steady {α : Type} (sid : String) (p : ReadProgram SessionDb α) : Prop :=
  ∀ db, ParentsStored sid db → ReadProgram.Stable (SameSlice sid) db p

namespace Steady

variable {α β : Type} {sid : String}

theorem done (a : α) : Steady sid (.done a : ReadProgram SessionDb α) := fun db _ => .done db a

theorem query {f : SessionDb → α} (h : ∀ db db', SameSlice sid db db' → f db' = f db) :
    Steady sid (ReadProgram.query f) := fun db _ => .query (h db)

theorem bind {p : ReadProgram SessionDb α} {f : α → ReadProgram SessionDb β} (hp : Steady sid p)
    (hf : ∀ a, Steady sid (f a)) : Steady sid (p.bind f) := by
  intro db hdb
  refine (hp db hdb).bind (SameSlice.trans sid) (hf _ db hdb) ?_
  intro db' hsame
  exact hf _ db' (hdb.same hsame)

theorem map {p : ReadProgram SessionDb α} (hp : Steady sid p) (f : α → β) : Steady sid (p.map f) :=
  hp.bind fun _ => done _

theorem ite {c : Prop} [Decidable c] {p q : ReadProgram SessionDb α} (hp : Steady sid p) (hq : Steady sid q) :
    Steady sid (if c then p else q) := by
  split
  · exact hp
  · exact hq

end Steady

theorem readSummary_steady (sid : String) (long : Bool) : Steady sid (readSummary sid long) := by
  refine (Steady.query fun _ _ h => h.summary).bind fun row => ?_
  cases row with
  | some row => exact .done _
  | none =>
    refine .query fun db db' h => ?_
    rw [h.latestSnapshot]

theorem readActiveState_steady (sid : String) : Steady sid (readActiveState sid) := by
  refine (Steady.query fun _ _ h => h.latestSnapshot).bind fun snapshot => ?_
  cases snapshot with
  | some s => exact .done _
  | none =>
    refine .query fun db db' h => ?_
    rw [h.latestWorkingState]

theorem anchorScan_steady (rt : Runtime) (sid : String) (recent : List RecentTurn) (rounds limit : ℕ) :
    Steady sid (anchorScan rt sid recent rounds limit) := by
  induction rounds generalizing limit with
  | zero => exact .done _
  | succ rounds ih =>
    refine (Steady.query fun _ _ h => h.recentTurns limit).bind fun scanned => ?_
    split
    · refine .ite (.done _) (.ite (.done _) (ih _))
    · exact .ite (.done _) (ih _)

theorem withTaskAnchorTurn_steady (rt : Runtime) (sid purpose : String) (recent : List RecentTurn) (total : ℕ) :
    Steady sid (withTaskAnchorTurn rt sid purpose recent total) :=
  .ite (.done _) (anchorScan_steady rt sid recent _ _)

private theorem mem_recentToolRows {db : SessionDb} {sid : String} {limit : ℕ} {e : SessionEventRow}
    (he : e ∈ recentToolRows db sid limit) : e ∈ db.sessionEvents ∧ e.sessionId = sid := by
  have hevents : e ∈ eventsOf db sid := List.mem_of_mem_filter (List.mem_of_mem_drop he)
  rw [eventsOf, (List.perm_insertionSort _ _).mem_iff] at hevents
  simpa using hevents

theorem readToolEvents_steady (env : SliceEnv) (sid : String) (limit : ℕ) :
    Steady sid (readToolEvents env sid limit) := by
  have hevent : ∀ db, ParentsStored sid db → ∀ e ∈ recentToolRows db sid limit,
      ReadProgram.Stable (SameSlice sid) db
        (if e.parentEventId.getD "" = "" then .done (toRecentToolEvent env e none)
        else ReadProgram.query fun db => toRecentToolEvent env e (getEventById db (e.parentEventId.getD ""))) := by
    intro db hdb e he
    split
    · exact .done db _
    · next hparent =>
      refine .query fun db' hsame => ?_
      obtain ⟨hmem, hsid⟩ := mem_recentToolRows he
      cases hid : e.parentEventId with
      | none =>
        rw [hid] at hparent
        exact absurd rfl hparent
      | some parent =>
        obtain ⟨p, hp⟩ := Option.isSome_iff_exists.mp (hdb e hmem hsid parent hid)
        rw [Option.getD_some, hsame.stored parent p hp, hp]
  have hrows : ∀ db, ParentsStored sid db → ReadProgram.Stable (SameSlice sid) db
      (ReadProgram.mapList (fun e =>
        if e.parentEventId.getD "" = "" then .done (toRecentToolEvent env e none)
        else ReadProgram.query fun db => toRecentToolEvent env e (getEventById db (e.parentEventId.getD "")))
        (recentToolRows db sid limit)) := by
    intro db hdb
    refine .mapList (SameSlice.trans sid) (hevent db hdb) ?_
    intro e he db' hsame
    rw [← hsame.recentToolRows] at he
    exact hevent db' (hdb.same hsame) e he
  intro db hdb
  refine (ReadProgram.Stable.query fun db' hsame => hsame.recentToolRows limit).bind
    (SameSlice.trans sid) ?_ ?_
  · exact hrows db hdb
  · exact fun db' hsame => hrows db' (hdb.same hsame)

theorem sliceReads_steady (env : SliceEnv) (key : SliceKey) (session : Option SliceSession) :
    Steady key.sessionId (sliceReads env key session) := by
  refine (readSummary_steady _ _).bind fun summary => ?_
  refine (Steady.query fun _ _ h => h.recentTurns _).bind fun recent => ?_
  refine (Steady.query fun _ _ h => ?_).bind fun total => ?_
  · rw [getTotalTurnCount, h.eventsOfTypes, getTotalTurnCount]
  refine (withTaskAnchorTurn_steady _ _ _ _ _).bind fun turns => ?_
  refine (Steady.query fun _ _ h => ?_).bind fun conversation => ?_
  · rw [getConversationSummary, h.eventsOf, getConversationSummary]
  refine (Steady.query fun _ _ h => ?_).bind fun plan => ?_
  · rw [getActiveTaskPlan, h.eventsOf, getActiveTaskPlan]
  refine (Steady.query fun _ _ h => ?_).bind fun continuation => ?_
  · rw [getContinuation, h.eventsOfTypes, getContinuation]
  refine (Steady.query fun _ _ h => ?_).bind fun feedback => ?_
  · rw [getPendingTrailerFeedback, h.eventsOfTypes, getPendingTrailerFeedback]
  refine (Steady.ite (.query fun _ _ h => ?_) (.done _)).bind fun openTasks => ?_
  · rw [deriveOpenTasks, h.eventsOf, deriveOpenTasks]
  refine (Steady.ite (readActiveState_steady _) (.done _)).bind fun activeState => ?_
  exact (readToolEvents_steady _ _ _).map _

theorem computeSlice_eq {env : SliceEnv} {db db' : SessionDb} {key : SliceKey} (hparents : EventParents db)
    (hsame : SameSlice key.sessionId db db') : computeSlice env db' key = computeSlice env db key := by
  have hsteady := sliceReads_steady env key (sliceSession db key.sessionId) db (hparents.stored _)
  rw [computeSlice, hsame.session, computeSlice]
  exact hsteady.eval_eq (.refl _ db) hsame

inductive Write where
  | appendEvent (a : AppendEvent)
  | appendTurn (t : AppendTurn)
  | putWorkingState (w : PutWorkingState)
  | upsertSummary (u : UpdateSummary)
  | setSummaryBase (b : SetSummaryBase)
  | storeSnapshot (row : SessionSnapshotRow)
  | storeDerivedViews (row : SessionSnapshotRow)

namespace Write

def sessionId : Write → String
  | .appendEvent a => a.sessionId
  | .appendTurn t => t.sessionId
  | .putWorkingState w => w.sessionId
  | .upsertSummary u => u.sessionId
  | .setSummaryBase b => b.sessionId
  | .storeSnapshot row => row.sessionId
  | .storeDerivedViews row => row.sessionId

def apply (rt : Runtime) (db : SessionDb) : Write → Except StoreError SessionDb
  | .appendEvent a => (SessionEventWrites.appendEvent rt db a).map Prod.fst
  | .appendTurn t => (SessionEventWrites.appendTurn rt db t).map Prod.fst
  | .putWorkingState w => (SessionStateWrites.putWorkingState db w).map Prod.fst
  | .upsertSummary u => (SessionStateWrites.upsertSummary db u).map Prod.fst
  | .setSummaryBase b => (SessionStateWrites.setSummaryBase db b).map Prod.fst
  | .storeSnapshot row => (SessionStateWrites.storeSnapshot db row).map Prod.fst
  | .storeDerivedViews row => .ok (SessionStateWrites.storeDerivedViews db row)

def changesSilently : Write → Bool
  | .putWorkingState _ | .upsertSummary _ | .storeSnapshot _ | .storeDerivedViews _ => true
  | .appendEvent _ | .appendTurn _ | .setSummaryBase _ => false

end Write

/-- The events after a write: at most one was added, with the next sequence number. -/
def EventsAfter (sid : String) (db db' : SessionDb) : Prop :=
  db'.sessionEvents = db.sessionEvents ∨ ∃ e : SessionEventRow, e.sessionId = sid ∧
    e.seq = latestEventSeq db sid + 1 ∧
    (∀ parent ∈ e.parentEventId, parent = e.eventId ∨ (getEventById db parent).isSome = true) ∧
    db'.sessionEvents = db.sessionEvents ++ [e]

/-- What a write does to the rows of the slices. -/
structure WriteEffect (w : Write) (db db' : SessionDb) : Prop where
  session : ∀ sid, sliceSession db' sid = sliceSession db sid
  events : EventsAfter w.sessionId db db'
  state : ∀ sid, sid ≠ w.sessionId ∨ w.changesSilently = false → stateRows db' sid = stateRows db sid

@[simp] theorem sliceSession_touchSession (db : SessionDb) (s : String) (ts : DateTime) (sid : String) :
    sliceSession (db.touchSession s ts) sid = sliceSession db sid := by
  have hrow : (db.touchSession s ts).getSession sid = (db.getSession sid).map fun r =>
      if decide (r.sessionId = s) then { r with updatedAt := ts } else r := by
    apply lookup_updateWhere
    exact fun _ _ => rfl
  rw [sliceSession, hrow, Option.map_map, sliceSession]
  congr 1
  funext row
  simp only [Function.comp_apply]
  split <;> rfl

theorem insertSessionEvent_after {db db' : SessionDb} {e : NewEvent} (h : insertSessionEvent db e = .ok db') :
    EventsAfter e.sessionId db db' ∧ db'.sessions = db.sessions ∧ ∀ sid, stateRows db' sid = stateRows db sid := by
  rcases insertSessionEvent_ok h with rfl | ⟨-, -, hparent, rfl⟩
  · exact ⟨.inl rfl, rfl, fun _ => rfl⟩
  · refine ⟨.inr ⟨_, rfl, rfl, ?_, rfl⟩, rfl, fun _ => rfl⟩
    intro parent hp
    have hp : e.parentEventId = some parent := hp
    simpa [parentExists, hp, NewEvent.row] using hparent

theorem filter_append_other {Row : Type} {sessionOf : Row → String} {rows : List Row} {row : Row} {sid : String}
    (h : sid ≠ sessionOf row) :
    ((rows ++ [row]).filter fun r => sessionOf r = sid) = rows.filter fun r => sessionOf r = sid := by
  rw [List.filter_append, List.filter_singleton]
  simp [h.symm]

theorem insertSnapshot_after {db db' : SessionDb} {row : SessionSnapshotRow} (h : insertSnapshot db row = .ok db') :
    db'.sessions = db.sessions ∧ db'.sessionEvents = db.sessionEvents ∧
      ∀ sid, sid ≠ row.sessionId → stateRows db' sid = stateRows db sid := by
  rw [insertSnapshot] at h
  split at h
  · obtain rfl := Except.ok.inj h
    refine ⟨rfl, rfl, fun sid hsid => ?_⟩
    simp only [stateRows, filter_append_other hsid]
  · cases h

theorem Write.apply_effect {rt : Runtime} {w : Write} {db db' : SessionDb} (h : w.apply rt db = .ok db') :
    WriteEffect w db db' := by
  cases w with
  | appendEvent a =>
    obtain ⟨⟨_, id⟩, hok, rfl⟩ := map_eq_ok.mp h
    obtain ⟨_, _, _, _, db₁, runs, -, hinsert, rfl⟩ := appendEvent_ok hok
    obtain ⟨hevents, hsessions, hstate⟩ := insertSessionEvent_after hinsert
    refine ⟨fun sid => ?_, hevents, fun sid _ => hstate sid⟩
    rw [sliceSession_touchSession]
    simp only [sliceSession, SessionDb.getSession, hsessions]
  | appendTurn t =>
    obtain ⟨⟨_, id⟩, hok, rfl⟩ := map_eq_ok.mp h
    obtain ⟨role, row, db₁, -, -, -, hinsert, rfl⟩ := appendTurn_ok hok
    obtain ⟨hevents, hsessions, hstate⟩ := insertSessionEvent_after hinsert
    refine ⟨fun sid => ?_, hevents, fun sid _ => hstate sid⟩
    rw [sliceSession_touchSession]
    simp only [sliceSession, SessionDb.getSession, hsessions]
  | putWorkingState w =>
    obtain ⟨⟨_, version⟩, hok, rfl⟩ := map_eq_ok.mp h
    rw [SessionStateWrites.putWorkingState] at hok
    split at hok
    · obtain ⟨rfl, -⟩ := Prod.mk.inj (Except.ok.inj hok)
      refine ⟨fun sid => sliceSession_touchSession _ _ _ sid, .inl rfl, fun sid hsid => ?_⟩
      have hsid : sid ≠ w.sessionId := hsid.resolve_right (by simp [changesSilently])
      refine congrArg (StateRows.mk _ _) (filter_append_other ?_)
      exact hsid
    · cases hok
  | upsertSummary u =>
    obtain ⟨⟨_, _⟩, hok, rfl⟩ := map_eq_ok.mp h
    rw [SessionStateWrites.upsertSummary] at hok
    split at hok
    · obtain ⟨rfl, -⟩ := Prod.mk.inj (Except.ok.inj hok)
      refine ⟨fun sid => sliceSession_touchSession _ _ _ sid, .inl rfl, fun sid hsid => ?_⟩
      have hsid : sid ≠ u.sessionId := hsid.resolve_right (by simp [changesSilently])
      refine congrArg (fun summary => StateRows.mk summary _ _) (lookup_upsertRow_of_ne ?_)
      exact hsid
    · cases hok
  | setSummaryBase b =>
    obtain ⟨⟨_, _⟩, hok, rfl⟩ := map_eq_ok.mp h
    rw [SessionStateWrites.setSummaryBase] at hok
    split at hok
    · obtain ⟨rfl, -⟩ := Prod.mk.inj (Except.ok.inj hok)
      exact ⟨fun sid => sliceSession_touchSession _ _ _ sid, .inl rfl, fun _ _ => rfl⟩
    · cases hok
  | storeSnapshot row =>
    obtain ⟨⟨_, id⟩, hok, rfl⟩ := map_eq_ok.mp h
    obtain ⟨db₁, hinsert, heq⟩ := map_eq_ok.mp hok
    obtain ⟨rfl, -⟩ := Prod.mk.inj heq
    obtain ⟨hsessions, hevents, hstate⟩ := insertSnapshot_after hinsert
    refine ⟨fun sid => ?_, .inl hevents, fun sid hsid => hstate sid (hsid.resolve_right (by simp [changesSilently]))⟩
    rw [sliceSession_touchSession]
    simp only [sliceSession, SessionDb.getSession, hsessions]
  | storeDerivedViews row =>
    obtain rfl := Except.ok.inj h
    rw [SessionStateWrites.storeDerivedViews]
    split
    · next db₁ hinsert =>
      obtain ⟨hsessions, hevents, hstate⟩ := insertSnapshot_after hinsert
      refine ⟨fun sid => ?_, .inl hevents, fun sid hsid => hstate sid (hsid.resolve_right (by simp [changesSilently]))⟩
      simp only [sliceSession, SessionDb.getSession, hsessions]
    · exact ⟨fun _ => rfl, .inl rfl, fun _ _ => rfl⟩

namespace WriteEffect

variable {w : Write} {db db' : SessionDb}

theorem stored (h : WriteEffect w db db') (id : String) (e : SessionEventRow) (he : getEventById db id = some e) :
    getEventById db' id = some e := by
  rcases h.events with hevents | ⟨row, -, -, -, hevents⟩
  · rw [getEventById, hevents]
    exact he
  · rw [getEventById, lookup, hevents, List.find?_append]
    have he : (db.sessionEvents.find? fun r => r.eventId = id) = some e := he
    rw [he]
    rfl

theorem eventParents (h : WriteEffect w db db') (hparents : EventParents db) : EventParents db' := by
  have hkept : ∀ parent, (getEventById db parent).isSome = true → (getEventById db' parent).isSome = true := by
    intro parent hparent
    obtain ⟨p, hp⟩ := Option.isSome_iff_exists.mp hparent
    rw [h.stored parent p hp]
    rfl
  intro e he parent hparent
  rcases h.events with hevents | ⟨row, -, -, hrow, hevents⟩
  · rw [hevents] at he
    exact hkept parent (hparents e he parent hparent)
  · rw [hevents] at he
    rcases List.mem_append.mp he with hold | hnew
    · exact hkept parent (hparents e hold parent hparent)
    · obtain rfl := List.mem_singleton.mp hnew
      rcases hrow parent hparent with rfl | hstored
      · -- an event may be its own parent
        cases hl : getEventById db' e.eventId with
        | some _ => rfl
        | none => exact absurd rfl (lookup_eq_none.mp hl e (by rw [hevents]; exact he))
      · exact hkept parent hstored

theorem events_eq (h : WriteEffect w db db') {sid : String}
    (hsid : sid ≠ w.sessionId ∨ latestEventSeq db' sid = latestEventSeq db sid) :
    (db'.sessionEvents.filter fun e => e.sessionId = sid) = db.sessionEvents.filter fun e => e.sessionId = sid := by
  rcases h.events with hevents | ⟨row, hrow, hseq, -, hevents⟩
  · rw [hevents]
  · rw [hevents]
    refine filter_append_other ?_
    rintro rfl
    rcases hsid with hne | hlatest
    · exact hne hrow
    · have hmem : row ∈ db'.sessionEvents := by simp [hevents]
      have hle := seq_le_latestEventSeq hmem
      rw [hlatest, hseq, hrow] at hle
      exact absurd hle (by simp)

theorem sameSlice (h : WriteEffect w db db') {sid : String}
    (hsid : sid ≠ w.sessionId ∨ latestEventSeq db' sid = latestEventSeq db sid)
    (hstate : sid ≠ w.sessionId ∨ w.changesSilently = false) : SameSlice sid db db' where
  session := h.session sid
  events := h.events_eq hsid
  state := h.state sid hstate
  stored := h.stored

theorem latestEventSeq_le (h : WriteEffect w db db') (sid : String) :
    latestEventSeq db sid ≤ latestEventSeq db' sid := by
  by_cases hsid : sid = w.sessionId
  · rcases h.events with hevents | ⟨row, hrow, hseq, -, hevents⟩
    · rw [latestEventSeq, latestEventSeq, hevents]
    · have hmem : row ∈ db'.sessionEvents := by simp [hevents]
      have hle := seq_le_latestEventSeq hmem
      rw [hrow, ← hsid] at hle
      rw [← hsid] at hseq
      omega
  · rw [latestEventSeq, latestEventSeq, h.events_eq (.inl hsid)]

end WriteEffect

end OpenMinion.SliceStability
