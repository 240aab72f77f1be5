import OpenMinion.ActiveStates
import OpenMinion.JsonSpacedTexts
import OpenMinion.SessionReferences

/-!
# Diffs of session branches

`diff_session_branches` compares digests of what two sessions hold. The records of a summary and of
a working state name their session, so that equal contents of two sessions have other digests.
-/
namespace OpenMinion.BranchDiffs
open ActiveStates DecimalTexts IsoTimestamps JsonSpacedTexts JsonTexts JsonValues KeyedTables ListPositions PythonText
open SessionEventWrites SessionReferences SessionStateWrites SessionTables

def optionJson (text : Option String) : Json := text.elim .null .str

def getSummaries (db : SessionDb) (sessionId : String) : Json :=
  let deltaRows := (db.summaryDeltas.filter fun r => r.sessionId = sessionId).insertionSort fun a b => a.seq ≤ b.seq
  .dict [("session_id", .str sessionId),
    ("base_ref", optionJson ((lookup SummaryBaseRow.sessionId sessionId db.summaries).map SummaryBaseRow.baseRef)),
    ("delta_refs", .list (deltaRows.map fun r => .str r.deltaRef)),
    ("delta_items", .list (deltaRows.map fun r =>
      .dict [("seq", .int r.seq), ("delta_ref", .str r.deltaRef), ("ts", .str (toIsoUtc r.ts))]))]

/-- The record that `get_latest_working_state` returns. -/
def WorkingStateRow.record (row : WorkingStateRow) : Json :=
  .dict [("session_id", .str row.sessionId), ("version", .int row.version), ("ts", .str (toIsoUtc row.ts)),
    ("state_ref", optionJson row.stateRef), ("state_inline", row.stateInline.elim .null .dict)]

def messageRefRows (db : SessionDb) (sessionId : String) : List MessageRefRow :=
  (db.messageRefs.filter fun r => r.sessionId = sessionId).insertionSort fun a b => a.seq ≤ b.seq

def refRecord (role : String) (contentRef : Option String) : Json :=
  .dict [("role", .str role), ("content_ref", optionJson contentRef)]

def refRecords (db : SessionDb) (sessionId : String) : List Json :=
  (messageRefRows db sessionId).map fun row => refRecord row.role row.contentRef

def messageRefRefs (db : SessionDb) (sessionId : String) : Json := .list (refRecords db sessionId)

structure BranchDiffItem where
  field : String
  status : String
  leftRef : String
  rightRef : String

def diffItem (field leftRef rightRef : String) : BranchDiffItem where
  field := field
  status :=
    if leftRef = rightRef then "same"
    else if leftRef = "empty" ∨ rightRef = "empty" then "added_or_removed"
    else "changed"
  leftRef := leftRef
  rightRef := rightRef

section
-- `hashlib.sha256(..).hexdigest()` of an encoded text
variable (sha256 : List Char → String)

def stableRef (value : Json) : String := if value.truthy then sha256 (spaced (sortedValue value)) else "empty"

def diffSummary (db : SessionDb) (left right : String) : BranchDiffItem :=
  diffItem "summary" (stableRef sha256 (.dict [("text", .str (getSummary db left false)), ("refs", getSummaries db left)]))
    (stableRef sha256 (.dict [("text", .str (getSummary db right false)), ("refs", getSummaries db right)]))

/-- The digest of `get_latest_working_state(session_id) or {}`. -/
def workingStateRef (db : SessionDb) (sessionId : String) : String :=
  stableRef sha256 (((getLatestWorkingState db sessionId).map WorkingStateRow.record).getD (.dict []))

def diffWorkingState (db : SessionDb) (left right : String) : BranchDiffItem :=
  diffItem "working_state" (workingStateRef sha256 db left) (workingStateRef sha256 db right)

def diffMessageRefs (db : SessionDb) (left right : String) : BranchDiffItem :=
  diffItem "message_refs" (stableRef sha256 (messageRefRefs db left)) (stableRef sha256 (messageRefRefs db right))

/-- The items of `diff_session_branches`. -/
def diffSessionBranches (db : SessionDb) (left right : String) : List BranchDiffItem :=
  [diffSummary sha256 db left right, diffWorkingState sha256 db left right, diffMessageRefs sha256 db left right]

/-- The diff reports the status `same` for a field. -/
def ReportsSame (db : SessionDb) (left right field : String) : Prop :=
  (field, "same") ∈ (diffSessionBranches sha256 db left right).map fun item => (item.field, item.status)

end

inductive BranchError where
  /-- `SessionBranchCarryForwardDeniedError`. -/
  | carryForwardDenied (message : String)
  | store (error : StoreError)

/-- Arguments of `carry_forward_branch_fields`, with the ids and the times of its writes. -/
structure CarryForward where
  sourceSessionId : String
  targetParentSessionId : String
  fields : List String
  title : Option String := none
  freshHex : String
  createdAt : DateTime
  summaryAt : DateTime
  summaryEventId : String
  summaryEventAt : DateTime
  stateAt : DateTime
  refs : ℕ → String × DateTime
  eventId : String
  eventAt : DateTime

def allowedCarryFields : List String := ["summary", "working_state", "message_refs"]

def forbiddenCarryFields : List String := ["raw_transcript", "secret", "encrypted_content"]

def schemaVersion : String := "session_branch_carry_forward.v1"

namespace CarryForward
variable (c : CarryForward)

def normalized : List String := ((c.fields.map strip).filter (· ≠ "")).dedup

def denied : Bool := c.normalized.any fun field => field ∈ forbiddenCarryFields || field ∉ allowedCarryFields

def sortedFields : Json := .list ((c.normalized.insertionSort (· ≤ ·)).map .str)

def session : CreateSession where
  sessionId := some ("branch-" ++ c.freshHex)
  title := orText c.title (some ("Carry-forward from " ++ c.sourceSessionId))
  metaJson := [("schema_version", .str schemaVersion), ("source_session_id", .str c.sourceSessionId),
    ("target_parent_session_id", .str c.targetParentSessionId), ("carried_fields", c.sortedFields)]
  freshId := ""
  now := c.createdAt

def event (child : String) : AppendEvent where
  sessionId := child
  eventType := some "session.branch.carry_forward.created"
  payload := [("schema_version", .str schemaVersion), ("source_session_id", .str c.sourceSessionId),
    ("target_parent_session_id", .str c.targetParentSessionId), ("fields", c.sortedFields)]
  freshId := c.eventId
  now := c.eventAt

end CarryForward

def transact {α : Type} (db : SessionDb) (r : Except StoreError (SessionDb × α)) : SessionDb × Except StoreError Unit :=
  match r with
  | .ok (db', _) => (db', .ok ())
  | .error e => (db, .error e)

def andThen (r : SessionDb × Except StoreError Unit) (next : SessionDb → SessionDb × Except StoreError Unit) :
    SessionDb × Except StoreError Unit :=
  match r with
  | (db, .ok ()) => next db
  | (db, .error e) => (db, .error e)

section
variable (rt : Runtime) (c : CarryForward)

def CarryForward.summary (db : SessionDb) (child : String) : UpdateSummary where
  sessionId := child
  summaryShort := getSummary db c.sourceSessionId false
  summaryLong := if getSummary db c.sourceSessionId true = "" then none else some (getSummary db c.sourceSessionId true)
  -- `get_summaries` has no `based_on_seq`
  basedOnSeq := 0
  now := c.summaryAt
  freshEventId := c.summaryEventId
  eventNow := c.summaryEventAt

def carrySummary (child : String) (db : SessionDb) : SessionDb × Except StoreError Unit :=
  let u := c.summary db child
  if getSummary db c.sourceSessionId false ≠ "" ∨ getSummary db c.sourceSessionId true ≠ "" then
    andThen (transact db (upsertSummary db u)) fun db => transact db (appendEvent rt db u.event)
  else (db, .ok ())

def carryWorkingState (child : String) (db : SessionDb) : SessionDb × Except StoreError Unit :=
  match getLatestWorkingState db c.sourceSessionId with
  | some row => transact db (putWorkingState db ⟨child, row.stateRef, some (row.stateInline.getD []), c.stateAt⟩)
  | none => (db, .ok ())

def carryFields (child : String) (db : SessionDb) : SessionDb × Except StoreError Unit :=
  let carry (field : String) (write : SessionDb → SessionDb × Except StoreError Unit) (db : SessionDb) :=
    if field ∈ c.normalized then write db else (db, .ok ())
  andThen (carry "summary" (carrySummary rt c child) db) fun db =>
    andThen (carry "working_state" (carryWorkingState c child) db) fun db =>
      andThen (carry "message_refs" (fun db => carryMessageRefs db c.sourceSessionId child c.refs) db) fun db =>
        transact db (appendEvent rt db (c.event child))

def carryForwardBranchFields (db : SessionDb) : SessionDb × Except BranchError String :=
  if c.denied then
    (db, .error (.carryForwardDenied "branch carry-forward requires an explicit structural allowlist"))
  else
    match insertSession db c.session with
    | .error e => (db, .error (.store e))
    | .ok (created, child) =>
      match carryFields rt c child created with
      | (db', .ok ()) => (db', .ok child)
      | (db', .error e) => (db', .error (.store e))

end

theorem getLatestWorkingState_sessionId {db : SessionDb} {sid : String} {row : WorkingStateRow}
    (h : getLatestWorkingState db sid = some row) : row.sessionId = sid := by
  have hsorted := List.mem_of_head? h
  exact of_decide_eq_true (List.mem_filter.mp ((List.perm_insertionSort _ _).mem_iff.mp hsorted)).2

section
variable {sha256 : List Char → String} (hsha : Function.Injective sha256) (hempty : ∀ text, sha256 text ≠ "empty")
include hsha hempty

theorem stableRef_eq_iff (v w : Json) : stableRef sha256 v = stableRef sha256 w ↔
    v.truthy = w.truthy ∧ (v.truthy = true → sortedValue v = sortedValue w) := by
  rw [stableRef, stableRef]
  cases hv : v.truthy with
  | false =>
    cases hw : w.truthy with
    | false => simp
    | true => simpa using (hempty _).symm
  | true =>
    cases hw : w.truthy with
    | false => simpa using hempty _
    | true =>
      simp only [if_true, true_and, forall_true_left]
      exact ⟨fun h => spaced_injective (hsha h), fun h => by rw [h]⟩

theorem diffItem_same_iff (field : String) (v w : Json) :
    (diffItem field (stableRef sha256 v) (stableRef sha256 w)).status = "same" ↔
      v.truthy = w.truthy ∧ (v.truthy = true → sortedValue v = sortedValue w) := by
  rw [← stableRef_eq_iff hsha hempty, diffItem]
  dsimp only
  split
  · next heq => exact iff_of_true rfl heq
  · next hne =>
    refine iff_of_false ?_ hne
    split
    · decide +kernel
    · decide +kernel

/-- Summaries of two sessions have other digests, as `get_summaries` names the session. -/
theorem diffSummary_same_iff (db : SessionDb) (left right : String) :
    (diffSummary sha256 db left right).status = "same" ↔ left = right := by
  rw [diffSummary, diffItem_same_iff hsha hempty]
  constructor
  · rintro ⟨-, hsame⟩
    obtain ⟨refs, hrefs, heq⟩ := mem_of_sortedValue_eq (hsame rfl) (List.mem_cons_of_mem _ (List.mem_singleton_self _))
    have hright : refs = getSummaries db right := by simpa using hrefs
    rw [hright] at heq
    obtain ⟨sid, hsid, hvalue⟩ := mem_of_sortedValue_eq heq List.mem_cons_self
    have hsid' : sid = .str right := by simpa using hsid
    rw [hsid'] at hvalue
    exact Value.str.inj hvalue
  · rintro rfl
    exact ⟨rfl, fun _ => rfl⟩

theorem diffWorkingState_same_iff (db : SessionDb) (left right : String) :
    (diffWorkingState sha256 db left right).status = "same" ↔
      left = right ∨ getLatestWorkingState db left = none ∧ getLatestWorkingState db right = none := by
  rw [diffWorkingState, workingStateRef, workingStateRef, diffItem_same_iff hsha hempty]
  cases hleft : getLatestWorkingState db left with
  | none =>
    cases hright : getLatestWorkingState db right with
    | none => exact iff_of_true ⟨rfl, fun _ => rfl⟩ (.inr ⟨rfl, rfl⟩)
    | some row =>
      refine iff_of_false (fun h => nomatch h.1) ?_
      rintro (rfl | ⟨-, h⟩)
      · exact nomatch hleft.symm.trans hright
      · cases h
  | some row =>
    cases hright : getLatestWorkingState db right with
    | none =>
      refine iff_of_false (fun h => nomatch h.1) ?_
      rintro (rfl | ⟨h, -⟩)
      · exact nomatch hleft.symm.trans hright
      · cases h
    | some other =>
      constructor
      · rintro ⟨-, hsame⟩
        obtain ⟨sid, hsid, hvalue⟩ := mem_of_sortedValue_eq (hsame rfl) List.mem_cons_self
        have hsid' : sid = .str other.sessionId := by simpa using hsid
        rw [hsid'] at hvalue
        rw [← getLatestWorkingState_sessionId hleft, ← getLatestWorkingState_sessionId hright]
        exact .inl (Value.str.inj hvalue)
      · rintro (rfl | ⟨h, -⟩)
        · obtain rfl := Option.some.inj (hleft.symm.trans hright)
          exact ⟨rfl, fun _ => rfl⟩
        · cases h

theorem diffMessageRefs_same_iff (db : SessionDb) (left right : String) :
    (diffMessageRefs sha256 db left right).status = "same" ↔
      (refRecords db left).map sortedValue = (refRecords db right).map sortedValue := by
  rw [diffMessageRefs, diffItem_same_iff hsha hempty, messageRefRefs, messageRefRefs, sortedValue, sortedValue,
    sortedList_eq_map, sortedList_eq_map, Value.list.injEq]
  constructor
  · rintro ⟨htruthy, hsame⟩
    cases hleft : refRecords db left with
    | nil =>
      rw [hleft] at htruthy
      have hright : refRecords db right = [] := by simpa [Json.truthy] using htruthy
      rw [hright]
    | cons record records =>
      rw [hleft] at hsame
      exact hsame rfl
  · intro hsame
    have hlength := congrArg List.length hsame
    rw [List.length_map, List.length_map] at hlength
    refine ⟨?_, fun _ => hsame⟩
    rw [Json.truthy, Json.truthy, Bool.not_inj_iff, Bool.eq_iff_iff, List.isEmpty_iff_length_eq_zero,
      List.isEmpty_iff_length_eq_zero, hlength]

end

/-- Writes that touch neither working states nor message refs. -/
def SameContents (db db' : SessionDb) : Prop := db'.workingState = db.workingState ∧ db'.messageRefs = db.messageRefs

section
variable {rt : Runtime} {c : CarryForward} {db db' db'' : SessionDb} {child : String}

theorem SameContents.refl (db : SessionDb) : SameContents db db := ⟨rfl, rfl⟩

theorem SameContents.trans (h : SameContents db db') (h' : SameContents db' db'') : SameContents db db'' :=
  ⟨h'.1.trans h.1, h'.2.trans h.2⟩

theorem SameContents.latest (h : SameContents db db') (sid : String) :
    getLatestWorkingState db' sid = getLatestWorkingState db sid := by
  rw [getLatestWorkingState, getLatestWorkingState, h.1]

theorem SameContents.rows (h : SameContents db db') (sid : String) : messageRefRows db' sid = messageRefRows db sid := by
  rw [messageRefRows, messageRefRows, h.2]

theorem transact_ok {α : Type} {r : Except StoreError (SessionDb × α)} :
    transact db r = (db', .ok ()) ↔ ∃ value, r = .ok (db', value) := by
  cases r with
  | error e => simp [transact]
  | ok result => simp [transact, Prod.ext_iff]

theorem andThen_ok {r : SessionDb × Except StoreError Unit} {next : SessionDb → SessionDb × Except StoreError Unit} :
    andThen r next = (db', .ok ()) ↔ ∃ db₁, r = (db₁, .ok ()) ∧ next db₁ = (db', .ok ()) := by
  obtain ⟨db₁, result⟩ := r
  cases result with
  | error e => simp [andThen]
  | ok value => simp [andThen]

theorem sameContents_appendEvent {a : AppendEvent} {id : String} (h : appendEvent rt db a = .ok (db', id)) : SameContents db db' := by
  obtain ⟨_, _, _, _, db₁, runs, -, hinsert, rfl⟩ := appendEvent_ok h
  rcases insertSessionEvent_ok hinsert with rfl | ⟨-, -, -, rfl⟩
  · exact ⟨rfl, rfl⟩
  · exact ⟨rfl, rfl⟩

theorem sameContents_upsertSummary {u : UpdateSummary} {value : Unit} (h : upsertSummary db u = .ok (db', value)) :
    SameContents db db' := by
  rw [upsertSummary] at h
  split at h
  · cases h
    exact ⟨rfl, rfl⟩
  · cases h

theorem sameContents_carrySummary (h : carrySummary rt c child db = (db', .ok ())) : SameContents db db' := by
  rw [carrySummary] at h
  split at h
  · obtain ⟨db₁, hupsert, happend⟩ := andThen_ok.mp h
    obtain ⟨_, hupsert⟩ := transact_ok.mp hupsert
    obtain ⟨_, happend⟩ := transact_ok.mp happend
    exact (sameContents_upsertSummary hupsert).trans (sameContents_appendEvent happend)
  · cases h
    exact .refl db

theorem carryWorkingState_ok (h : carryWorkingState c child db = (db', .ok ())) :
    db'.messageRefs = db.messageRefs ∧
      (∀ sid, sid ≠ child → getLatestWorkingState db' sid = getLatestWorkingState db sid) ∧
      (getLatestWorkingState db c.sourceSessionId = none → db' = db) ∧
      (getLatestWorkingState db c.sourceSessionId ≠ none → getLatestWorkingState db' child ≠ none) := by
  rw [carryWorkingState] at h
  cases hsource : getLatestWorkingState db c.sourceSessionId with
  | none =>
    simp only [hsource] at h
    cases h
    exact ⟨rfl, fun _ _ => rfl, fun _ => rfl, fun hne => absurd rfl hne⟩
  | some row =>
    simp only [hsource] at h
    obtain ⟨version, hput⟩ := transact_ok.mp h
    have hrefs : db'.messageRefs = db.messageRefs := by
      rw [putWorkingState] at hput
      dsimp only at hput
      split at hput
      · cases hput
        rfl
      · cases hput
    refine ⟨hrefs, fun sid hne => ?_, (fun hnone => by cases hnone), fun _ => ?_⟩
    · rw [(putWorkingState_ok sid hput).2.2, if_neg hne.symm]
    · rw [(putWorkingState_ok child hput).2.2, if_pos rfl]
      exact Option.some_ne_none _

theorem messageRefRows_addMessageRef {a : AddMessageRef} {id : String} (h : addMessageRef db a = .ok (db', id)) (sid : String) :
    messageRefRows db' sid = messageRefRows db sid ++ if a.sessionId = sid then [a.row db] else [] := by
  obtain rfl := addMessageRef_ok h
  rw [messageRefRows, messageRefRows, List.filter_append]
  by_cases hsid : a.sessionId = sid
  · have hrow : [a.row db].filter (fun r => decide (r.sessionId = sid)) = [a.row db] := List.filter_cons_of_pos (decide_eq_true hsid)
    rw [hrow, if_pos hsid]
    refine insertionSort_concat fun row hmem => ?_
    change row.seq ≤ nextRefSeq db a.sessionId
    rw [hsid, nextRefSeq]
    have hseq := List.mem_map_of_mem (f := MessageRefRow.seq) hmem
    rw [List.max?_eq_some_max (List.ne_nil_of_mem hseq)]
    exact Nat.le_succ_of_le (List.le_max_of_mem hseq)
  · have hrow : [a.row db].filter (fun r => decide (r.sessionId = sid)) = [] :=
      List.filter_cons_of_neg (Bool.not_eq_true _ ▸ decide_eq_false hsid)
    rw [hrow, if_neg hsid, List.append_nil, List.append_nil]

def carriedRole (role : String) : String := if role = "" then "assistant" else role

theorem carryRows_ok {source : String} {items : List (MessageRefRow × String × DateTime)}
    (h : carryRows source child db items = (db', .ok ())) (sid : String) :
    refRecords db' sid = refRecords db sid ++
      if child = sid then items.map fun item => refRecord (carriedRole item.1.role) item.1.contentRef else [] := by
  induction items generalizing db with
  | nil =>
    cases h
    simp
  | cons item items ih =>
    rw [carryRows] at h
    split at h
    · cases h
    · next db₁ _ hadd =>
      rw [ih h, refRecords, messageRefRows_addMessageRef hadd, List.map_append, ← refRecords, List.append_assoc]
      congr 1
      have hcarried : (carriedRef source child item.1 item.2).sessionId = child := rfl
      rw [hcarried]
      by_cases hsid : child = sid
      · rw [if_pos hsid, if_pos hsid, if_pos hsid]
        rfl
      · rw [if_neg hsid, if_neg hsid, if_neg hsid]
        rfl

theorem carryMessageRefs_ok {source : String} {fresh : ℕ → String × DateTime}
    (h : carryMessageRefs db source child fresh = (db', .ok ())) :
    db'.workingState = db.workingState ∧ ∀ sid, refRecords db' sid = refRecords db sid ++
      if child = sid then (messageRefRows db source).map fun row => refRecord (carriedRole row.role) row.contentRef else [] := by
  rw [carryMessageRefs] at h
  dsimp only at h
  constructor
  · obtain ⟨new, hnew⟩ := carryRows_eq source child db _
    rw [h] at hnew
    dsimp only at hnew
    rw [hnew]
  · intro sid
    rw [carryRows_ok h sid, List.map_map, ← messageRefRows]
    congr 2
    conv_rhs => rw [← List.zipIdx_map_fst 0 (messageRefRows db source), List.map_map]
    rfl

theorem carryFields_ok (h : carryFields rt c child db = (db', .ok ())) :
    (∀ sid, sid ≠ child → getLatestWorkingState db' sid = getLatestWorkingState db sid) ∧
      ("working_state" ∉ c.normalized ∨ getLatestWorkingState db c.sourceSessionId = none →
        getLatestWorkingState db' child = getLatestWorkingState db child) ∧
      ("working_state" ∈ c.normalized → getLatestWorkingState db c.sourceSessionId ≠ none →
        getLatestWorkingState db' child ≠ none) ∧
      ∀ sid, refRecords db' sid = refRecords db sid ++
        if child = sid ∧ "message_refs" ∈ c.normalized then
          (messageRefRows db c.sourceSessionId).map fun row => refRecord (carriedRole row.role) row.contentRef
        else [] := by
  rw [carryFields] at h
  dsimp only at h
  obtain ⟨db₁, hsummary, h⟩ := andThen_ok.mp h
  obtain ⟨db₂, hworking, h⟩ := andThen_ok.mp h
  obtain ⟨db₃, hrefs, h⟩ := andThen_ok.mp h
  obtain ⟨id, hevent⟩ := transact_ok.mp h
  have hfirst : SameContents db db₁ := by
    split at hsummary
    · exact sameContents_carrySummary hsummary
    · cases hsummary
      exact .refl db
  have hlast : SameContents db₃ db' := sameContents_appendEvent hevent
  have hthird : db₃.workingState = db₂.workingState ∧ ∀ sid, refRecords db₃ sid = refRecords db₂ sid ++
      if child = sid ∧ "message_refs" ∈ c.normalized then
        (messageRefRows db₂ c.sourceSessionId).map fun row => refRecord (carriedRole row.role) row.contentRef
      else [] := by
    split at hrefs
    · next hfield => simpa only [hfield, and_true] using carryMessageRefs_ok hrefs
    · next hfield =>
      cases hrefs
      simp [hfield]
  have hlatest (sid : String) : getLatestWorkingState db' sid = getLatestWorkingState db₂ sid := by
    rw [hlast.latest, getLatestWorkingState, getLatestWorkingState, hthird.1]
  have hrecords (hsame : db₂.messageRefs = db.messageRefs) (sid : String) : refRecords db' sid = refRecords db sid ++
      if child = sid ∧ "message_refs" ∈ c.normalized then
        (messageRefRows db c.sourceSessionId).map fun row => refRecord (carriedRole row.role) row.contentRef
      else [] := by
    rw [refRecords, hlast.rows, ← refRecords, hthird.2, refRecords, refRecords, messageRefRows, messageRefRows, messageRefRows,
      messageRefRows, hsame]
  split at hworking
  · next hfield =>
    obtain ⟨hsame, hother, hnone, hsome⟩ := carryWorkingState_ok hworking
    rw [hfirst.latest] at hnone hsome
    refine ⟨fun sid hne => ?_, ?_, fun _ hstate => ?_, hrecords (hsame.trans hfirst.2)⟩
    · rw [hlatest, hother sid hne, hfirst.latest]
    · rintro (hnot | hstate)
      · exact absurd hfield hnot
      · rw [hlatest, hnone hstate, hfirst.latest]
    · rw [hlatest]
      exact hsome hstate
  · next hfield =>
    cases hworking
    refine ⟨fun sid _ => ?_, fun _ => ?_, fun hin => absurd hin hfield, hrecords hfirst.2⟩
    · rw [hlatest, hfirst.latest]
    · rw [hlatest, hfirst.latest]

end

theorem sortedValue_refRecord_eq_iff (role other : String) (contentRef : Option String) :
    sortedValue (refRecord role contentRef) = sortedValue (refRecord other contentRef) ↔ role = other := by
  constructor
  · intro h
    obtain ⟨value, hvalue, heq⟩ := mem_of_sortedValue_eq h List.mem_cons_self
    have hother : value = .str other := by simpa using hvalue
    rw [hother] at heq
    exact Value.str.inj heq
  · rintro rfl
    rfl

theorem carriedRole_eq_iff (role : String) : role = carriedRole role ↔ role ≠ "" := by
  rw [carriedRole]
  split
  · next hempty =>
    rw [hempty]
    decide +kernel
  · next hne => exact iff_of_true rfl hne

theorem carriedRecords_eq_iff (rows : List MessageRefRow) :
    (rows.map fun row => refRecord row.role row.contentRef).map sortedValue =
        (rows.map fun row => refRecord (carriedRole row.role) row.contentRef).map sortedValue ↔
      ∀ row ∈ rows, row.role ≠ "" := by
  rw [List.map_map, List.map_map, List.map_inj_left]
  refine forall₂_congr fun row _ => ?_
  exact (sortedValue_refRecord_eq_iff _ _ _).trans (carriedRole_eq_iff row.role)

/-- The foreign keys of the working states and the message refs to their sessions. -/
structure Linked (db : SessionDb) : Prop where
  workingState : ∀ row ∈ db.workingState, db.hasSession row.sessionId = true
  messageRefs : ∀ row ∈ db.messageRefs, db.hasSession row.sessionId = true

theorem Linked.latest_none {db : SessionDb} (h : Linked db) {sid : String} (hsid : db.hasSession sid = false) :
    getLatestWorkingState db sid = none := by
  cases hlatest : getLatestWorkingState db sid with
  | none => rfl
  | some row =>
    have hmem := (List.mem_filter.mp ((List.perm_insertionSort _ _).mem_iff.mp (List.mem_of_head? hlatest))).1
    have hsession := h.workingState row hmem
    rw [getLatestWorkingState_sessionId hlatest, hsid] at hsession
    cases hsession

theorem Linked.refRecords_nil {db : SessionDb} (h : Linked db) {sid : String} (hsid : db.hasSession sid = false) :
    refRecords db sid = [] := by
  have hrows : (db.messageRefs.filter fun r => decide (r.sessionId = sid)) = [] := by
    rw [List.filter_eq_nil_iff]
    intro row hrow heq
    have hsession := h.messageRefs row hrow
    rw [of_decide_eq_true heq, hsid] at hsession
    cases hsession
  rw [refRecords, messageRefRows, hrows]
  rfl

theorem carryForwardBranchFields_ok {rt : Runtime} {c : CarryForward} {db : SessionDb} {child : String}
    (h : (carryForwardBranchFields rt c db).2 = .ok child) :
    (∀ field ∈ c.normalized, field ∈ allowedCarryFields) ∧ db.hasSession child = false ∧
      ∃ created, created.workingState = db.workingState ∧ created.messageRefs = db.messageRefs ∧
        carryFields rt c child created = ((carryForwardBranchFields rt c db).1, .ok ()) := by
  rw [carryForwardBranchFields] at h ⊢
  by_cases hdenied : c.denied = true
  · rw [if_pos hdenied] at h
    cases h
  · rw [if_neg hdenied] at h ⊢
    have hallowed : ∀ field ∈ c.normalized, field ∈ allowedCarryFields := by
      intro field hfield
      by_contra hnot
      exact hdenied (List.any_eq_true.mpr ⟨field, hfield, by simp [hnot]⟩)
    rw [insertSession] at h ⊢
    by_cases hexists : db.hasSession c.session.sid = true
    · rw [if_pos hexists] at h
      cases h
    · rw [if_neg hexists] at h ⊢
      dsimp only at h ⊢
      generalize hcreated : { db with sessions := db.sessions ++ [c.session.row] } = created at h ⊢
      cases hcarry : carryFields rt c c.session.sid created with
      | mk db' result =>
        rw [hcarry] at h
        cases result with
        | error e => cases h
        | ok value =>
          obtain rfl : c.session.sid = child := Except.ok.inj h
          refine ⟨hallowed, Bool.not_eq_true _ ▸ hexists, created, ?_, ?_, hcarry⟩
          · rw [← hcreated]
          · rw [← hcreated]

def Recognised (db : SessionDb) (c : CarryForward) : Prop :=
  "summary" ∉ c.normalized ∧
    ("working_state" ∈ c.normalized → getLatestWorkingState db c.sourceSessionId = none) ∧
    ("message_refs" ∈ c.normalized → ∀ row ∈ messageRefRows db c.sourceSessionId, row.role ≠ "")

/-- `state_ref` and `state_inline` of the latest working state. -/
def latestContent (db : SessionDb) (sessionId : String) : Option (Option String × Option Dict) :=
  (getLatestWorkingState db sessionId).map fun row => (row.stateRef, row.stateInline)

section
variable {sha256 : List Char → String}

theorem reportsSame_summary (db : SessionDb) (left right : String) :
    ReportsSame sha256 db left right "summary" ↔ (diffSummary sha256 db left right).status = "same" := by
  simp [ReportsSame, diffSessionBranches, diffSummary, diffWorkingState, diffMessageRefs, diffItem, eq_comm]

theorem reportsSame_workingState (db : SessionDb) (left right : String) :
    ReportsSame sha256 db left right "working_state" ↔ (diffWorkingState sha256 db left right).status = "same" := by
  simp [ReportsSame, diffSessionBranches, diffSummary, diffWorkingState, diffMessageRefs, diffItem, eq_comm]

theorem reportsSame_messageRefs (db : SessionDb) (left right : String) :
    ReportsSame sha256 db left right "message_refs" ↔ (diffMessageRefs sha256 db left right).status = "same" := by
  simp [ReportsSame, diffSessionBranches, diffSummary, diffWorkingState, diffMessageRefs, diffItem, eq_comm]

theorem forall_carried_iff {c : CarryForward} (hallowed : ∀ field ∈ c.normalized, field ∈ allowedCarryFields) (p : String → Prop) :
    (∀ field ∈ c.normalized, p field) ↔ ("summary" ∈ c.normalized → p "summary") ∧
      ("working_state" ∈ c.normalized → p "working_state") ∧ ("message_refs" ∈ c.normalized → p "message_refs") := by
  refine ⟨fun h => ⟨h _, h _, h _⟩, fun h field hfield => ?_⟩
  have hcases := hallowed field hfield
  rw [allowedCarryFields, List.mem_cons, List.mem_cons, List.mem_singleton] at hcases
  rcases hcases with rfl | rfl | rfl
  · exact h.1 hfield
  · exact h.2.1 hfield
  · exact h.2.2 hfield

/-- The diff finds all carried fields the same exactly when there is no summary and no working state among them and
every carried ref has a role. -/
theorem recognises_iff (hsha : Function.Injective sha256) (hempty : ∀ text, sha256 text ≠ "empty") {rt : Runtime} {c : CarryForward}
    {db : SessionDb} {child : String} (hlinked : Linked db) (hsource : db.hasSession c.sourceSessionId = true)
    (hcarry : (carryForwardBranchFields rt c db).2 = .ok child) :
    ((∀ field ∈ c.normalized, ReportsSame sha256 (carryForwardBranchFields rt c db).1 c.sourceSessionId child field) ↔
      Recognised db c) ∧
    ∀ left right, (ReportsSame sha256 db left right "working_state" ↔ latestContent db left = latestContent db right) ↔
      left = right ∨ latestContent db left = none ∨ latestContent db left ≠ latestContent db right := by
  obtain ⟨hallowed, hnew, created, hworking, hrefs, hfields⟩ := carryForwardBranchFields_ok hcarry
  have hne : c.sourceSessionId ≠ child := by
    rintro heq
    rw [heq, hnew] at hsource
    cases hsource
  have hsame : SameContents db created := ⟨hworking, hrefs⟩
  obtain ⟨hother, hkept, hcarried, hrecords⟩ := carryFields_ok hfields
  constructor
  · rw [forall_carried_iff hallowed, reportsSame_summary, reportsSame_workingState, reportsSame_messageRefs,
      diffSummary_same_iff hsha hempty, diffWorkingState_same_iff hsha hempty, diffMessageRefs_same_iff hsha hempty]
    refine and_congr ⟨fun h hin => hne (h hin), fun h hin => absurd hin h⟩ (and_congr ?_ ?_)
    · refine forall_congr' fun hin => ?_
      rw [hother _ hne, hsame.latest, or_iff_right hne]
      refine ⟨fun h => h.1, fun hnone => ⟨hnone, ?_⟩⟩
      rw [hkept (.inr ((hsame.latest _).trans hnone)), hsame.latest]
      exact hlinked.latest_none hnew
    · refine forall_congr' fun hin => ?_
      rw [hrecords, hrecords, if_neg (fun h => hne h.1.symm), if_pos ⟨rfl, hin⟩, refRecords, refRecords, hsame.rows, hsame.rows,
        ← refRecords, ← refRecords, hlinked.refRecords_nil hnew, List.append_nil, List.nil_append]
      exact carriedRecords_eq_iff _
  · intro left right
    rw [reportsSame_workingState, diffWorkingState_same_iff hsha hempty, latestContent, latestContent]
    by_cases heq : left = right
    · simp [heq]
    · cases hleft : getLatestWorkingState db left with
      | none => simp [heq, eq_comm]
      | some row =>
        cases hright : getLatestWorkingState db right with
        | none => simp [heq]
        | some other => simp [heq]

end

def textDigest (text : List Char) : String := String.ofList ('#' :: text)

theorem textDigest_injective : Function.Injective textDigest := by
  intro text other h
  exact (List.cons.inj (String.ofList_injective h)).2

theorem textDigest_ne_empty (text : List Char) : textDigest text ≠ "empty" := by
  intro h
  have hlist := congrArg String.toList h
  rw [textDigest, String.toList_ofList] at hlist
  exact absurd (List.cons.inj hlist).1 (by decide +kernel)

def workingDb : SessionDb := committed sessionDb (putWorkingState sessionDb ⟨"s", none, some [("step", .int 1)], snapshotTime⟩)

def carryState (fields : List String) : CarryForward where
  sourceSessionId := "s"
  targetParentSessionId := "s"
  fields := fields
  freshHex := "0123456789ab"
  createdAt := snapshotTime
  summaryAt := snapshotTime
  summaryEventId := "summary"
  summaryEventAt := snapshotTime
  stateAt := snapshotTime
  refs _ := ("ref", snapshotTime)
  eventId := "event"
  eventAt := snapshotTime

theorem linked_workingDb : Linked workingDb where
  workingState := by decide +kernel
  messageRefs := by decide +kernel

theorem carried_workingDb (fields : List String) (h : (carryForwardBranchFields snapshotRuntime (carryState fields) workingDb).2.toOption =
    some "branch-0123456789ab") :
    (carryForwardBranchFields snapshotRuntime (carryState fields) workingDb).2 = .ok "branch-0123456789ab" := by
  cases hresult : (carryForwardBranchFields snapshotRuntime (carryState fields) workingDb).2 with
  | error e =>
    rw [hresult] at h
    cases h
  | ok child =>
    rw [hresult] at h
    rw [Option.some.inj h]

theorem carried_state :
    (carryForwardBranchFields snapshotRuntime (carryState ["working_state"]) workingDb).2 = .ok "branch-0123456789ab" :=
  carried_workingDb ["working_state"] (by decide +kernel)

theorem recognises_state_iff :
    ((∀ field ∈ (carryState ["working_state"]).normalized, ReportsSame textDigest
        (carryForwardBranchFields snapshotRuntime (carryState ["working_state"]) workingDb).1 "s" "branch-0123456789ab" field) ↔
      Recognised workingDb (carryState ["working_state"])) ∧
    ∀ left right, (ReportsSame textDigest workingDb left right "working_state" ↔
        latestContent workingDb left = latestContent workingDb right) ↔
      left = right ∨ latestContent workingDb left = none ∨ latestContent workingDb left ≠ latestContent workingDb right :=
  recognises_iff textDigest_injective textDigest_ne_empty linked_workingDb (by decide +kernel) carried_state

/-- A carried working state is reported as changed. -/
theorem carried_state_changed :
    ¬ ∀ (sha256 : List Char → String) (rt : Runtime) (c : CarryForward) (db : SessionDb) (child : String),
      Function.Injective sha256 → (∀ text, sha256 text ≠ "empty") → Linked db → db.hasSession c.sourceSessionId = true →
      (∀ field ∈ c.normalized, field ∈ allowedCarryFields) → (carryForwardBranchFields rt c db).2 = .ok child →
      (∀ field ∈ c.normalized, ReportsSame sha256 (carryForwardBranchFields rt c db).1 c.sourceSessionId child field) ∧
      ∀ left right, ReportsSame sha256 db left right "working_state" ↔ latestContent db left = latestContent db right := by
  intro h
  have hsource : workingDb.hasSession "s" = true := by decide +kernel
  obtain ⟨hsame, -⟩ := h textDigest snapshotRuntime (carryState ["working_state"]) workingDb "branch-0123456789ab"
    textDigest_injective textDigest_ne_empty linked_workingDb hsource (by decide +kernel) carried_state
  have hworking := hsame "working_state" (by decide +kernel)
  rw [reportsSame_workingState, diffWorkingState_same_iff textDigest_injective textDigest_ne_empty] at hworking
  rcases hworking with heq | ⟨hnone, -⟩
  · exact absurd heq (by decide +kernel)
  · exact absurd hnone (by decide +kernel)

end OpenMinion.BranchDiffs
