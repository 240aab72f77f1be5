import OpenMinion.SessionEventWrites
import OpenMinion.TransitionRuns

/-!
# The tool transcript

`buildToolTranscript` replays the canonical tool events of a session. The writer's derived ids and its check of the
parent keep the log linked, so that the reader accepts every log the writer produces.
-/
namespace OpenMinion.ToolTranscript
open JsonValues KeyedTables SessionEventWrites SessionTables TransitionRuns

def isCanonical (e : SessionEventRow) : Bool :=
  e.eventType ∈ toolTranscriptEvents && hasSchemaVersion e.payload

inductive TranscriptLane where
  | legacyHistory
  | canonicalEvents
  deriving DecidableEq

inductive CausalFidelity where
  | bestEffort
  | exact
  deriving DecidableEq

structure Transcript where
  transcriptLane : TranscriptLane
  causalFidelity : CausalFidelity
  events : List SessionEventRow
  deriving DecidableEq

structure Replay where
  requestedById : List SessionEventRow := []
  terminalParentIds : List String := []

def sameLinkage (parent payload : Dict) : Bool :=
  (parent.get "call_id").pyEq (payload.get "call_id") &&
  (parent.get "turn_scope_id").pyEq (payload.get "turn_scope_id") &&
  (parent.get "research_invocation_id").pyEq (payload.get "research_invocation_id")

def replayEvent (r : Replay) (e : SessionEventRow) : Except StoreError Replay :=
  if e.eventType = "tool.call.requested" then
    .ok { r with requestedById := e :: r.requestedById }
  else
    let parentId := e.parentEventId.getD ""
    match lookup SessionEventRow.eventId parentId r.requestedById with
    | none => .error (.valueError "tool transcript replay error: orphan terminal result")
    | some parent =>
      if sameLinkage parent.payload e.payload then
        if parentId ∈ r.terminalParentIds then
          .error (.valueError "tool transcript replay error: duplicate terminal result")
        else .ok { r with terminalParentIds := parentId :: r.terminalParentIds }
      else .error (.valueError "tool transcript replay error: conflicting linkage")

def buildToolTranscript (events : List SessionEventRow) : Except StoreError Transcript :=
  let canonical := events.filter isCanonical
  if canonical.isEmpty then
    .ok ⟨.legacyHistory, .bestEffort, events.filter fun e => "tool.".toList.isPrefixOf e.eventType.toList⟩
  else match canonical.foldlM replayEvent {} with
    | .ok _ => .ok ⟨.canonicalEvents, .exact, canonical⟩
    | .error e => .error e

def getToolTranscript (db : SessionDb) (sessionId : String) : Except StoreError Transcript :=
  buildToolTranscript (eventsOf db sessionId)

/-- The payload names exactly this turn scope, call and invocation. -/
structure Carries (payload : Dict) (l : ToolLinkage) : Prop where
  turnScopeId : payload.get "turn_scope_id" = .str l.turnScopeId
  callId : payload.get "call_id" = .str l.callId
  researchInvocationId : payload.get "research_invocation_id" =
    (match l.researchInvocationId with
      | some rid => .str rid
      | none => .null)

theorem Carries.unique {payload : Dict} {l l' : ToolLinkage} (h : Carries payload l)
    (h' : Carries payload l') : l = l' := by
  obtain ⟨turn, call, rid⟩ := l
  obtain ⟨turn', call', rid'⟩ := l'
  have hturn := h.turnScopeId.symm.trans h'.turnScopeId
  have hcall := h.callId.symm.trans h'.callId
  have hrid := h.researchInvocationId.symm.trans h'.researchInvocationId
  cases rid <;> cases rid' <;> simp_all

theorem Carries.sameLinkage {parent payload : Dict} {l : ToolLinkage} (h : Carries parent l)
    (h' : Carries payload l) : sameLinkage parent payload = true := by
  rw [ToolTranscript.sameLinkage, h.callId, h'.callId, h.turnScopeId, h'.turnScopeId,
    h.researchInvocationId, h'.researchInvocationId]
  cases l.researchInvocationId <;> simp

/-- What the writer guarantees of an event that it appends to a log. -/
structure Linked (rt : Runtime) (log : List SessionEventRow) (e : SessionEventRow) : Prop where
  requested : e.eventType = "tool.call.requested" → isCanonical e = true
  terminal : isCanonical e = true → e.eventType ≠ "tool.call.requested" →
    ∃ l, Carries e.payload l ∧ e.eventId = stableToolEventId rt e.sessionId l "terminal" ∧
      ∃ p ∈ log, p.eventType = "tool.call.requested" ∧ p.sessionId = e.sessionId ∧
        e.parentEventId = some p.eventId ∧ Carries p.payload l

/-- A log in which every event had a fresh id, the next sequence number of its session and
the linkage that the writer checks. -/
inductive LinkedLog (rt : Runtime) : List SessionEventRow → Prop where
  | nil : LinkedLog rt []
  | snoc {log : List SessionEventRow} {e : SessionEventRow} (before : LinkedLog rt log)
      (fresh : ∀ r ∈ log, r.eventId ≠ e.eventId)
      (later : ∀ r ∈ log, r.sessionId = e.sessionId → r.seq < e.seq)
      (linked : Linked rt log e) : LinkedLog rt (log ++ [e])

theorem Linked.mono {rt : Runtime} {log log' : List SessionEventRow} {e : SessionEventRow}
    (h : Linked rt log e) (hsub : log ⊆ log') : Linked rt log' e := by
  refine ⟨h.requested, fun hc hne => ?_⟩
  obtain ⟨l, hcarries, hid, p, hp, hparent⟩ := h.terminal hc hne
  exact ⟨l, hcarries, hid, p, hsub hp, hparent⟩

namespace LinkedLog

variable {rt : Runtime} {log : List SessionEventRow}

theorem linked_before (h : LinkedLog rt log) : ∀ {before after : List SessionEventRow}
    {e : SessionEventRow}, log = before ++ e :: after → Linked rt before e := by
  induction h with
  | nil => simp
  | snoc h fresh later linked ih =>
    intro before after e heq
    rcases List.eq_nil_or_concat after with rfl | ⟨after', last, rfl⟩
    · obtain ⟨rfl, hlast⟩ := List.append_inj' heq rfl
      obtain rfl := List.singleton_inj.mp hlast
      exact linked
    · rw [List.concat_eq_append, ← List.cons_append, ← List.append_assoc] at heq
      exact ih (List.append_inj' heq rfl).1

theorem linked (h : LinkedLog rt log) {e : SessionEventRow} (he : e ∈ log) : Linked rt log e := by
  obtain ⟨before, after, heq⟩ := List.append_of_mem he
  refine (h.linked_before heq).mono ?_
  rw [heq]
  exact List.subset_append_left _ _

theorem uniqueKey (h : LinkedLog rt log) : UniqueKey SessionEventRow.eventId log := by
  induction h with
  | nil => exact .nil
  | snoc before fresh later linked ih => exact ih.append_singleton fresh

theorem pairwise (h : LinkedLog rt log) :
    log.Pairwise fun a b => a.sessionId = b.sessionId → a.seq < b.seq := by
  induction h with
  | nil => exact .nil
  | snoc before fresh later linked ih =>
    refine List.pairwise_append.mpr ⟨ih, List.pairwise_singleton _ _, ?_⟩
    intro a ha b hb
    obtain rfl := List.mem_singleton.mp hb
    exact later a ha

theorem terminal_unique (h : LinkedLog rt log) {e e' : SessionEventRow} (he : e ∈ log)
    (he' : e' ∈ log) (hc : isCanonical e = true) (hc' : isCanonical e' = true)
    (hne : e.eventType ≠ "tool.call.requested") (hne' : e'.eventType ≠ "tool.call.requested")
    (hparent : e.parentEventId = e'.parentEventId) : e = e' := by
  obtain ⟨l, -, hid, p, hp, -, hsession, hpid, hcarries⟩ := (h.linked he).terminal hc hne
  obtain ⟨l', -, hid', p', hp', -, hsession', hpid', hcarries'⟩ := (h.linked he').terminal hc' hne'
  have hpp : p = p' := by
    apply h.uniqueKey.eq_of_key_eq hp hp'
    rw [hpid, hpid'] at hparent
    exact Option.some.inj hparent
  subst hpp
  obtain rfl := hcarries.unique hcarries'
  apply h.uniqueKey.eq_of_key_eq he he'
  rw [hid, hid', ← hsession, hsession']

end LinkedLog

def canonicalOf (sessionId : String) (log : List SessionEventRow) : List SessionEventRow :=
  (log.filter fun e => e.sessionId = sessionId).filter isCanonical

/-- The replay state after a prefix of the log. -/
structure Replayed (sessionId : String) (log : List SessionEventRow) (r : Replay) : Prop where
  requested : ∀ p ∈ log, p.sessionId = sessionId → p.eventType = "tool.call.requested" →
    lookup SessionEventRow.eventId p.eventId r.requestedById = some p
  terminal : ∀ id ∈ r.terminalParentIds, ∃ e ∈ log, isCanonical e = true ∧
    e.eventType ≠ "tool.call.requested" ∧ e.parentEventId = some id

theorem replayEvent_ok {rt : Runtime} {log : List SessionEventRow} {e : SessionEventRow} {r : Replay}
    (h : LinkedLog rt (log ++ [e])) (hr : Replayed e.sessionId log r)
    (hc : isCanonical e = true) :
    ∃ r', replayEvent r e = .ok r' ∧ Replayed e.sessionId (log ++ [e]) r' := by
  have he : e ∈ log ++ [e] := by simp
  by_cases hreq : e.eventType = "tool.call.requested"
  · refine ⟨{ r with requestedById := e :: r.requestedById }, by simp [replayEvent, hreq], ?_, ?_⟩
    · intro p hp hsession hpreq
      by_cases heq : p = e
      · simp [heq, lookup]
      · have hne : e.eventId ≠ p.eventId := fun hid => heq (h.uniqueKey.eq_of_key_eq hp he hid.symm)
        have hmem : p ∈ log := by simpa [heq] using hp
        simpa [lookup, hne] using hr.requested p hmem hsession hpreq
    · intro id hid
      obtain ⟨t, ht, hrest⟩ := hr.terminal id hid
      exact ⟨t, List.mem_append_left _ ht, hrest⟩
  · obtain ⟨l, hcarries, hid, p, hp, hpreq, hsession, hparent, hpcarries⟩ :=
      (h.linked he).terminal hc hreq
    have hpe : p ≠ e := fun heq => hreq (heq ▸ hpreq)
    have hmem : p ∈ log := by simpa [hpe] using hp
    have hlookup := hr.requested p hmem hsession hpreq
    have hnot : p.eventId ∉ r.terminalParentIds := by
      intro hin
      obtain ⟨t, ht, htc, htne, htparent⟩ := hr.terminal _ hin
      have hte : t = e := h.terminal_unique (List.mem_append_left _ ht) he htc hc htne hreq
        (htparent.trans hparent.symm)
      have hnodup := h.uniqueKey
      rw [UniqueKey, List.map_append, List.nodup_append] at hnodup
      exact hnodup.2.2 _ (List.mem_map_of_mem ht) _ (by simp [hte]) rfl
    refine ⟨{ r with terminalParentIds := p.eventId :: r.terminalParentIds }, ?_, ?_, ?_⟩
    · simp [replayEvent, hreq, hparent, hlookup, hpcarries.sameLinkage hcarries, hnot]
    · intro q hq hqsession hqreq
      have hqe : q ≠ e := fun heq => hreq (heq ▸ hqreq)
      exact hr.requested q (by simpa [hqe] using hq) hqsession hqreq
    · intro id hid
      rcases List.mem_cons.mp hid with rfl | hid
      · exact ⟨e, he, hc, hreq, hparent⟩
      · obtain ⟨t, ht, hrest⟩ := hr.terminal id hid
        exact ⟨t, List.mem_append_left _ ht, hrest⟩

theorem replay_ok {rt : Runtime} {log : List SessionEventRow} (h : LinkedLog rt log)
    (sessionId : String) :
    ∃ r, (canonicalOf sessionId log).foldlM replayEvent {} = .ok r ∧ Replayed sessionId log r := by
  induction h with
  | nil => exact ⟨{}, rfl, ⟨by simp, by simp⟩⟩
  | @snoc log e before fresh later linked ih =>
    obtain ⟨r, hr, hreplayed⟩ := ih
    -- events of other sessions and non-canonical events do not reach the loop
    by_cases hin : e.sessionId = sessionId ∧ isCanonical e = true
    · obtain ⟨rfl, hc⟩ := hin
      obtain ⟨r', hstep, hreplayed'⟩ :=
        replayEvent_ok (before.snoc fresh later linked) hreplayed hc
      refine ⟨r', ?_, hreplayed'⟩
      have hlist : canonicalOf e.sessionId (log ++ [e]) = canonicalOf e.sessionId log ++ [e] := by
        simp [canonicalOf, hc]
      rw [hlist, List.foldlM_append, hr]
      simp [hstep, bind, Except.bind, pure, Except.pure]
    · have hlist : canonicalOf sessionId (log ++ [e]) = canonicalOf sessionId log := by
        by_cases hsession : e.sessionId = sessionId
        · have hc : isCanonical e = false := by simpa [hsession] using hin
          simp [canonicalOf, hsession, hc]
        · simp [canonicalOf, hsession]
      refine ⟨r, by rw [hlist, hr], ?_, ?_⟩
      · intro p hp hsession hpreq
        rcases List.mem_append.mp hp with hp | hp
        · exact hreplayed.requested p hp hsession hpreq
        · obtain rfl := List.mem_singleton.mp hp
          exact absurd ⟨hsession, linked.requested hpreq⟩ hin
      · intro id hid
        obtain ⟨t, ht, hrest⟩ := hreplayed.terminal id hid
        exact ⟨t, List.mem_append_left _ ht, hrest⟩

theorem LinkedLog.eventsOf_eq {rt : Runtime} {db : SessionDb} (h : LinkedLog rt db.sessionEvents)
    (sessionId : String) :
    eventsOf db sessionId = db.sessionEvents.filter fun e => e.sessionId = sessionId := by
  rw [eventsOf]
  apply List.Pairwise.insertionSort_eq
  have hpairs := h.pairwise.filter fun e => e.sessionId = sessionId
  refine hpairs.imp_of_mem ?_
  intro a b ha hb hab
  have ha' : a.sessionId = sessionId := by simpa using (List.mem_filter.mp ha).2
  have hb' : b.sessionId = sessionId := by simpa using (List.mem_filter.mp hb).2
  exact (hab (ha'.trans hb'.symm)).le

theorem getToolTranscript_ok {rt : Runtime} {db : SessionDb} (h : LinkedLog rt db.sessionEvents)
    (sessionId : String) : ∃ t, getToolTranscript db sessionId = .ok t := by
  obtain ⟨r, hr, -⟩ := replay_ok h sessionId
  rw [canonicalOf] at hr
  rw [getToolTranscript, h.eventsOf_eq, buildToolTranscript]
  split
  · exact ⟨_, rfl⟩
  · rw [hr]
    exact ⟨_, rfl⟩

section Writer

variable {rt : Runtime}

private theorem get_phaseFields {eventType : String} {payload rest : Dict}
    (h : phaseFields rt eventType payload = .ok rest) :
    Dict.get rest "research_invocation_id" = .null := by
  rw [phaseFields] at h
  split at h
  · rw [requestedFields] at h
    simp only [bind_eq_ok] at h
    obtain ⟨_, -, _, -, _, -, _, -, h⟩ := h
    obtain rfl := Except.ok.inj h
    simp [Dict.get]
  · rw [terminalFields] at h
    simp only [bind_eq_ok] at h
    obtain ⟨_, -, _, -, h⟩ := h
    split at h
    · simp only [bind_eq_ok] at h
      obtain ⟨_, -, _, -, h⟩ := h
      obtain rfl := Except.ok.inj h
      simp [Dict.get]
    · simp only [bind_eq_ok] at h
      obtain ⟨_, -, h⟩ := h
      split at h
      · obtain rfl := Except.ok.inj h
        simp [Dict.get]
      · cases h

theorem canonicalToolPayload_ok {eventType : String} {payload payload' : Dict} {l : ToolLinkage}
    (h : canonicalToolPayload rt eventType payload = .ok (l, payload')) :
    Carries payload' l ∧ hasSchemaVersion payload' = true := by
  rw [canonicalToolPayload] at h
  simp only [bind_eq_ok] at h
  obtain ⟨linkage, -, rest, hrest, h⟩ := h
  obtain ⟨rfl, rfl⟩ := Prod.mk.inj (Except.ok.inj h)
  have hnull := get_phaseFields hrest
  obtain ⟨turn, call, rid⟩ := linkage
  refine ⟨⟨?_, ?_, ?_⟩, ?_⟩
  · simp [ToolLinkage.fields, Dict.get]
  · simp [ToolLinkage.fields, Dict.get]
  · cases rid with
    | none => simpa [ToolLinkage.fields, Dict.get] using hnull
    | some rid => simp [ToolLinkage.fields, Dict.get]
  · simp [hasSchemaVersion, ToolLinkage.fields, Dict.get, Json.pyEq, Json.number]

theorem validateToolResultParent_ok {db : SessionDb} {sessionId : String}
    {parentEventId : Option String} {payload : Dict} {l : ToolLinkage} (hcarries : Carries payload l)
    (h : validateToolResultParent db sessionId parentEventId payload = .ok ()) :
    ∃ p ∈ db.sessionEvents, p.eventType = "tool.call.requested" ∧ p.sessionId = sessionId ∧
      parentEventId = some p.eventId ∧ Carries p.payload l := by
  rw [validateToolResultParent] at h
  simp only [bind_eq_ok, require_eq_ok, decide_eq_true_eq] at h
  obtain ⟨_, hne, h⟩ := h
  cases hp : getEventById db (parentEventId.getD "") with
  | none => simp [hp] at h
  | some p =>
    simp only [hp, bind_eq_ok, require_eq_ok, decide_eq_true_eq] at h
    obtain ⟨_, htype, _, hsession, _, hcall, _, hrid, hturn⟩ := h
    obtain ⟨hmem, hid⟩ := lookup_some hp
    refine ⟨p, hmem, htype, hsession, ?_, ?_, ?_, ?_⟩
    · cases parentEventId with
      | none => exact absurd rfl hne
      | some parent => exact congrArg some hid.symm
    · simpa [hcarries.turnScopeId] using hturn
    · simpa [hcarries.callId] using hcall
    · rw [hcarries.researchInvocationId] at hrid
      cases hl : l.researchInvocationId <;> simpa [hl] using hrid

/-- What `prepareEvent` guarantees of the payload and the id of an event. -/
theorem prepareEvent_ok {db : SessionDb} {sessionId eventName : String} {payload₀ payload : Dict}
    {parentEventId traceId eventId : Option String}
    (h : prepareEvent rt db sessionId eventName payload₀ parentEventId traceId =
      .ok (payload, eventId)) :
    (eventName = "tool.call.requested" → hasSchemaVersion payload = true) ∧
    (eventName ∈ toolTranscriptEvents → hasSchemaVersion payload = true →
      eventName ≠ "tool.call.requested" →
      ∃ l, Carries payload l ∧ eventId = some (stableToolEventId rt sessionId l "terminal") ∧
        ∃ p ∈ db.sessionEvents, p.eventType = "tool.call.requested" ∧ p.sessionId = sessionId ∧
          parentEventId = some p.eventId ∧ Carries p.payload l) := by
  rw [prepareEvent] at h
  cases hllm : llmEventId rt sessionId eventName payload₀ traceId with
  | some id =>
    have hname : eventName ∈ ["llm.call.completed", "llm.call.failed"] := by
      by_contra hnot
      simp [llmEventId, hnot] at hllm
    have hother : ∀ name ∈ ["llm.call.completed", "llm.call.failed"], name ∉ toolTranscriptEvents := by
      decide
    have hnot := hother eventName hname
    exact ⟨fun heq => absurd (by rw [heq]; decide) hnot, fun hmem => absurd hmem hnot⟩
  | none =>
    simp only [hllm] at h
    split at h
    · simp only [bind_eq_ok] at h
      obtain ⟨⟨l, payload₁⟩, hcanonical, h⟩ := h
      obtain ⟨hcarries, hschema⟩ := canonicalToolPayload_ok hcanonical
      by_cases hreq : eventName = "tool.call.requested"
      · simp only [hreq, if_true] at h
        obtain ⟨rfl, -⟩ := Prod.mk.inj (Except.ok.inj h)
        exact ⟨fun _ => hschema, fun _ _ hne => absurd hreq hne⟩
      · simp only [hreq, if_false, bind_eq_ok] at h
        obtain ⟨_, hvalid, h⟩ := h
        obtain ⟨rfl, rfl⟩ := Prod.mk.inj (Except.ok.inj h)
        exact ⟨fun heq => absurd heq hreq,
          fun _ _ _ => ⟨l, hcarries, rfl, validateToolResultParent_ok hcarries hvalid⟩⟩
    · next hnot =>
      obtain ⟨rfl, rfl⟩ := Prod.mk.inj (Except.ok.inj h)
      simp only [isCanonicalToolEvent, Bool.or_eq_true, Bool.and_eq_true, decide_eq_true_eq] at hnot
      exact ⟨fun hreq => absurd (.inl hreq) hnot, fun hmem hs _ => absurd (.inr ⟨hmem, hs⟩) hnot⟩

theorem LinkedLog.insert {db db' : SessionDb} (h : LinkedLog rt db.sessionEvents) {e : NewEvent}
    (hlinked : ∀ seq, Linked rt db.sessionEvents (e.row seq))
    (hinsert : insertSessionEvent db e = .ok db') : LinkedLog rt db'.sessionEvents := by
  rcases insertSessionEvent_ok hinsert with rfl | ⟨hnew, -, -, rfl⟩
  · exact h
  · refine h.snoc (lookup_eq_none.mp hnew) ?_ (hlinked _)
    intro r hr hsession
    have hle := seq_le_latestEventSeq hr
    rw [hsession] at hle
    exact Nat.lt_succ_of_le hle

theorem LinkedLog.appendEvent {db db' : SessionDb} (h : LinkedLog rt db.sessionEvents)
    {a : AppendEvent} {id : String} (hok : appendEvent rt db a = .ok (db', id)) :
    LinkedLog rt db'.sessionEvents := by
  obtain ⟨eventName, payload, eventId, taskId, db₁, runs, hprepare, hinsert, rfl⟩ :=
    appendEvent_ok hok
  obtain ⟨hreq, hterm⟩ := prepareEvent_ok hprepare
  change LinkedLog rt db₁.sessionEvents
  refine h.insert (fun seq => ⟨?_, ?_⟩) hinsert
  · intro hname
    have hname : eventName = "tool.call.requested" := hname
    subst hname
    exact Bool.and_eq_true_iff.mpr ⟨by simp [NewEvent.row, AppendEvent.event, toolTranscriptEvents],
      hreq rfl⟩
  · intro hc hne
    simp only [isCanonical, Bool.and_eq_true, decide_eq_true_eq] at hc
    obtain ⟨l, hcarries, rfl, hparent⟩ := hterm hc.1 hc.2 hne
    refine ⟨l, hcarries, ?_, hparent⟩
    have hne' : stableToolEventId rt a.sessionId l "terminal" ≠ "" := rt.uuid5Hex_ne _
    simp [NewEvent.row, AppendEvent.event, orText, hne']

theorem LinkedLog.appendTurn {db db' : SessionDb} (h : LinkedLog rt db.sessionEvents)
    {t : AppendTurn} {id : String} (hok : appendTurn rt db t = .ok (db', id)) :
    LinkedLog rt db'.sessionEvents := by
  obtain ⟨role, row, db₁, hrole, -, -, hinsert, rfl⟩ := appendTurn_ok hok
  have hname : "turn." ++ role ∉ toolTranscriptEvents := by
    simp only [List.mem_cons, List.not_mem_nil, or_false] at hrole
    rcases hrole with rfl | rfl | rfl | rfl <;> decide
  have h₁ : LinkedLog rt { db with turns := db.turns ++ [row] }.sessionEvents := h
  change LinkedLog rt db₁.sessionEvents
  refine h₁.insert (fun seq => ⟨?_, ?_⟩) hinsert
  · intro hreq
    have hreq : "turn." ++ role = "tool.call.requested" := hreq
    exact absurd (by rw [hreq]; decide) hname
  · intro hc
    simp only [isCanonical, Bool.and_eq_true, decide_eq_true_eq] at hc
    exact absurd hc.1 hname

end Writer

inductive WriterCall where
  | createSession (c : CreateSession)
  | appendEvent (a : AppendEvent)
  | appendTurn (t : AppendTurn)

def writerStep (rt : Runtime) (db : SessionDb) : WriterCall → SessionDb
  | .createSession c => committed db (insertSession db c)
  | .appendEvent a => committed db (appendEvent rt db a)
  | .appendTurn t => committed db (appendTurn rt db t)

theorem LinkedLog.writerStep {rt : Runtime} {db : SessionDb} (h : LinkedLog rt db.sessionEvents)
    (c : WriterCall) : LinkedLog rt (writerStep rt db c).sessionEvents := by
  cases c with
  | createSession c =>
    rw [ToolTranscript.writerStep, insertSession]
    split <;> exact h
  | appendEvent a =>
    rw [ToolTranscript.writerStep]
    cases hok : SessionEventWrites.appendEvent rt db a with
    | error e => exact h
    | ok r => exact h.appendEvent hok
  | appendTurn t =>
    rw [ToolTranscript.writerStep]
    cases hok : SessionEventWrites.appendTurn rt db t with
    | error e => exact h
    | ok r => exact h.appendTurn hok

/-- After every sequence of writer calls the transcript of every session is built without an error, every canonical
terminal event has its request earlier with the same linkage, and no request has two. -/
theorem toolTranscript_writer_reader_agree (rt : Runtime) (db₀ : SessionDb) (calls : List WriterCall)
    (sessionId : String) :
    let db := run (writerStep rt) { db₀ with sessionEvents := [] } calls
    (∃ t, getToolTranscript db sessionId = .ok t) ∧
    (∀ (before : List SessionEventRow) (e : SessionEventRow) (after : List SessionEventRow),
      eventsOf db sessionId = before ++ e :: after → isCanonical e = true →
      e.eventType ≠ "tool.call.requested" →
      ∃ p ∈ before, p.eventType = "tool.call.requested" ∧ p.sessionId = sessionId ∧
        e.parentEventId = some p.eventId ∧
        p.payload.get "call_id" = e.payload.get "call_id" ∧
        p.payload.get "turn_scope_id" = e.payload.get "turn_scope_id" ∧
        p.payload.get "research_invocation_id" = e.payload.get "research_invocation_id") ∧
    (∀ e ∈ eventsOf db sessionId, ∀ e' ∈ eventsOf db sessionId, isCanonical e = true →
      isCanonical e' = true → e.eventType ≠ "tool.call.requested" →
      e'.eventType ≠ "tool.call.requested" → e.parentEventId = e'.parentEventId → e = e') := by
  intro db
  have hstep : ∀ db c, LinkedLog rt (SessionDb.sessionEvents db) →
      LinkedLog rt (writerStep rt db c).sessionEvents := fun _ c h => h.writerStep c
  have hlog : LinkedLog rt db.sessionEvents := run_invariant hstep .nil calls
  clear_value db
  have hmem : ∀ {e}, e ∈ eventsOf db sessionId → e ∈ db.sessionEvents := by
    intro e he
    rw [hlog.eventsOf_eq] at he
    exact (List.mem_filter.mp he).1
  refine ⟨getToolTranscript_ok hlog sessionId, ?_, ?_⟩
  · intro before e after hsplit hc hne
    rw [hlog.eventsOf_eq, List.filter_eq_append_iff] at hsplit
    obtain ⟨l₁, l₂, hsplit, rfl, hrest⟩ := hsplit
    obtain ⟨m₁, m₂, rfl, hm₁, hsession, -⟩ := List.filter_eq_cons_iff.mp hrest
    rw [← List.append_assoc] at hsplit
    have hbefore : Linked rt (l₁ ++ m₁) e := hlog.linked_before hsplit
    obtain ⟨l, hcarries, -, p, hp, hreq, hpsession, hparent, hpcarries⟩ := hbefore.terminal hc hne
    have hp' : p.sessionId = sessionId := hpsession.trans (by simpa using hsession)
    refine ⟨p, ?_, hreq, hp', hparent, ?_, ?_, ?_⟩
    · rcases List.mem_append.mp hp with hp | hp
      · exact List.mem_filter.mpr ⟨hp, by simpa using hp'⟩
      · exact absurd (by simpa using hp') (hm₁ p hp)
    · rw [hpcarries.callId, hcarries.callId]
    · rw [hpcarries.turnScopeId, hcarries.turnScopeId]
    · rw [hpcarries.researchInvocationId, hcarries.researchInvocationId]
  · intro e he e' he' hc hc' hne hne' hparent
    exact hlog.terminal_unique (hmem he) (hmem he') hc hc' hne hne' hparent

end OpenMinion.ToolTranscript
