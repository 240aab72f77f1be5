import OpenMinion.ToolTranscript

/-!
# Session event logs

Whatever the writers do, accepted or rejected, every session keeps a log that is only appended
to, whose events are numbered from one without gaps.
-/
namespace OpenMinion.EventLogs
open KeyedTables SessionEventWrites SessionTables ToolTranscript TransitionRuns

def logOf (rows : List SessionEventRow) (sessionId : String) : List SessionEventRow :=
  rows.filter fun e => e.sessionId = sessionId

/-- Events have an id each, and those of a session are numbered in the order of the table. -/
structure Numbered (rows : List SessionEventRow) : Prop where
  ids : UniqueKey SessionEventRow.eventId rows
  seqs : ∀ sessionId, (logOf rows sessionId).map SessionEventRow.seq = List.range' 1 (logOf rows sessionId).length

theorem max?_range' (n : ℕ) : (List.range' 1 n).max?.getD 0 = n := by
  cases n with
  | zero => rfl
  | succ n =>
    have hmax : (List.range' 1 (n + 1)).max? = some (n + 1) := by
      refine List.max?_eq_some_iff.mpr ⟨List.mem_range'_1.mpr (by omega), fun b hb => ?_⟩
      have hb := List.mem_range'_1.mp hb
      omega
    rw [hmax]
    rfl

theorem Numbered.latestEventSeq_eq {db : SessionDb} (h : Numbered db.sessionEvents) (sessionId : String) :
    latestEventSeq db sessionId = (logOf db.sessionEvents sessionId).length := by
  have hseqs := h.seqs sessionId
  rw [logOf] at hseqs
  rw [latestEventSeq, hseqs, max?_range']
  rfl

theorem Numbered.eventsOf_eq {db : SessionDb} (h : Numbered db.sessionEvents) (sessionId : String) :
    eventsOf db sessionId = logOf db.sessionEvents sessionId := by
  have hseqs := h.seqs sessionId
  rw [logOf] at hseqs
  have hsorted : ((db.sessionEvents.filter fun e => e.sessionId = sessionId).map SessionEventRow.seq).Pairwise (· ≤ ·) := by
    rw [hseqs]
    exact List.pairwise_le_range'
  exact (List.pairwise_map.mp hsorted).insertionSort_eq

theorem logOf_snoc (rows : List SessionEventRow) (e : SessionEventRow) (sessionId : String) :
    logOf (rows ++ [e]) sessionId = logOf rows sessionId ++ if e.sessionId = sessionId then [e] else [] := by
  rw [logOf, List.filter_append]
  by_cases hsession : e.sessionId = sessionId
  · simp [logOf, hsession]
  · simp [logOf, hsession]

/-- An accepted insert appends the event with the next number, or finds it stored. -/
theorem Numbered.insert {db db' : SessionDb} (h : Numbered db.sessionEvents) {e : NewEvent}
    (hinsert : insertSessionEvent db e = .ok db') :
    Numbered db'.sessionEvents ∧ db.sessionEvents <+: db'.sessionEvents := by
  obtain rfl | ⟨hfresh, -, -, rfl⟩ := insertSessionEvent_ok hinsert
  · exact ⟨h, List.prefix_refl _⟩
  · refine ⟨⟨h.ids.append_singleton (lookup_eq_none.mp hfresh), ?_⟩, List.prefix_append _ _⟩
    intro sessionId
    rw [logOf_snoc]
    split
    · next hsession =>
      have hseq : (e.row (latestEventSeq db e.sessionId + 1)).seq = (logOf db.sessionEvents sessionId).length + 1 := by
        rw [← hsession]
        exact congrArg (· + 1) (h.latestEventSeq_eq e.sessionId)
      rw [List.map_append, h.seqs, List.map_singleton, hseq, List.length_append, List.length_singleton, List.range'_1_concat]
      rw [Nat.add_comm 1]
    · rw [List.append_nil]
      exact h.seqs sessionId

theorem Numbered.writerStep {rt : Runtime} {db : SessionDb} (h : Numbered db.sessionEvents) (c : WriterCall) :
    Numbered (writerStep rt db c).sessionEvents ∧ db.sessionEvents <+: (writerStep rt db c).sessionEvents := by
  have hsame : Numbered db.sessionEvents ∧ db.sessionEvents <+: db.sessionEvents := ⟨h, List.prefix_refl _⟩
  cases c with
  | createSession c =>
    rw [ToolTranscript.writerStep, insertSession]
    split <;> exact hsame
  | appendEvent a =>
    rw [ToolTranscript.writerStep]
    cases hok : appendEvent rt db a with
    | error e => exact hsame
    | ok r =>
      obtain ⟨_, _, _, _, db₁, runs, -, hinsert, heq⟩ := appendEvent_ok hok
      have hevents : (committed db (.ok r)).sessionEvents = db₁.sessionEvents := by
        change r.1.sessionEvents = _
        rw [heq]
        rfl
      rw [hevents]
      exact h.insert hinsert
  | appendTurn t =>
    rw [ToolTranscript.writerStep]
    cases hok : appendTurn rt db t with
    | error e => exact hsame
    | ok r =>
      obtain ⟨_, row, db₁, -, -, -, hinsert, heq⟩ := appendTurn_ok hok
      have hevents : (committed db (.ok r)).sessionEvents = db₁.sessionEvents := by
        change r.1.sessionEvents = _
        rw [heq]
        rfl
      rw [hevents]
      have hturns : Numbered ({ db with turns := db.turns ++ [row] } : SessionDb).sessionEvents := h
      exact hturns.insert hinsert

/-- The events of each session are numbered from the first on without gaps, no two events of the store have one id,
and whatever follows only appends. -/
theorem eventLog_gapless (rt : Runtime) (db₀ : SessionDb) (calls : List WriterCall) :
    let db := run (writerStep rt) { db₀ with sessionEvents := [] } calls
    UniqueKey SessionEventRow.eventId db.sessionEvents ∧
    ∀ sessionId, (eventsOf db sessionId).map SessionEventRow.seq = List.range' 1 (eventsOf db sessionId).length ∧
      ∀ later, eventsOf db sessionId <+: eventsOf (run (writerStep rt) db later) sessionId := by
  intro db
  have hrun : ∀ db₁ later, Numbered (SessionDb.sessionEvents db₁) →
      Numbered (run (writerStep rt) db₁ later).sessionEvents ∧
        db₁.sessionEvents <+: (run (writerStep rt) db₁ later).sessionEvents := by
    intro db₁ later h
    induction later generalizing db₁ with
    | nil => exact ⟨h, List.prefix_refl _⟩
    | cons c later ih =>
      obtain ⟨hstep, happended⟩ : Numbered (writerStep rt db₁ c).sessionEvents ∧
          db₁.sessionEvents <+: (writerStep rt db₁ c).sessionEvents := h.writerStep c
      obtain ⟨hlater, happended'⟩ := ih _ hstep
      exact ⟨hlater, happended.trans happended'⟩
  have hempty : Numbered ([] : List SessionEventRow) := ⟨.nil, fun _ => rfl⟩
  obtain ⟨hdb, -⟩ := hrun { db₀ with sessionEvents := [] } calls hempty
  refine ⟨hdb.ids, fun sessionId => ⟨?_, fun later => ?_⟩⟩
  · rw [hdb.eventsOf_eq]
    exact hdb.seqs sessionId
  · obtain ⟨hlater, happended⟩ := hrun db later hdb
    rw [hdb.eventsOf_eq, hlater.eventsOf_eq]
    exact happended.filter _

end OpenMinion.EventLogs
