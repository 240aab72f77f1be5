import OpenMinion.JsonTexts
import OpenMinion.MemoryDatabase
import OpenMinion.TransitionRuns

/-!
# Capture bundles

`apply_capture_bundle` writes the candidates of a turn and the receipt of their capture id in one transaction. A later
call with the id returns the receipt for the same report and fails for another one.
-/
namespace OpenMinion.CaptureBundles
open DecimalTexts JsonTexts JsonValues KeyedTables MemoryDatabase MemoryStore PythonText TransitionRuns

structure CaptureCandidateInput where
  kind : String
  normalizedKey : String
  title : String
  content : String
  tags : List String := []
  confidence : Number := .finite ⟨false, 3, -1, .inl (by decide)⟩
  deriving DecidableEq

structure CaptureBundleInput where
  captureId : String
  rootTurnId : String
  sessionId : String
  agentId : String
  candidates : List CaptureCandidateInput
  deriving DecidableEq

def CaptureCandidateInput.asPayload (item : CaptureCandidateInput) : Value :=
  .dict (sortKeys
    [("kind", .str item.kind), ("normalized_key", .str item.normalizedKey), ("title", .str item.title),
      ("content", .str item.content), ("tags", .list (item.tags.map .str)), ("confidence", .number (.ofNumber item.confidence))])

def CaptureBundleInput.reportPayload (bundle : CaptureBundleInput) : Value :=
  .dict (sortKeys
    [("root_turn_id", .str bundle.rootTurnId), ("session_id", .str bundle.sessionId), ("agent_id", .str bundle.agentId),
      ("candidates", .list (bundle.candidates.map CaptureCandidateInput.asPayload))])

/-- The report of a bundle is all of it but the capture id. -/
def SameReport (a b : CaptureBundleInput) : Prop :=
  a.rootTurnId = b.rootTurnId ∧ a.sessionId = b.sessionId ∧ a.agentId = b.agentId ∧ a.candidates = b.candidates

instance (a b : CaptureBundleInput) : Decidable (SameReport a b) :=
  inferInstanceAs (Decidable (_ ∧ _))

def kindToRecordType (kind : String) : Option String :=
  if kind = "fact" then some "fact"
  else if kind = "user_preference" then some "user_preference"
  else if kind = "task" then some "task"
  else none

def capturable (ordinal : ℕ) (item : CaptureCandidateInput) : Option (ℕ × CaptureCandidateInput × String) :=
  (kindToRecordType item.kind).bind fun recordType =>
    if strip item.title ≠ "" ∧ strip item.content ≠ "" then some (ordinal, item, recordType) else none

def capturableCandidates (bundle : CaptureBundleInput) : List (ℕ × CaptureCandidateInput × String) :=
  bundle.candidates.zipIdx.filterMap fun (item, ordinal) => capturable ordinal item

/-- `max(0.0, min(1.0, confidence))`. -/
def clampConfidence : Number → ℚ
  | .nan => 1
  | .inf negative => if negative then 0 else 1
  | .finite d => max 0 (min 1 d.value)

def captureMetadata (bundle : CaptureBundleInput) (ordinal : ℕ) (item : CaptureCandidateInput) : Metadata where
  items :=
    [("capture_id", .str bundle.captureId), ("capture_ordinal", .int ordinal), ("normalized_key", .str item.normalizedKey),
      ("source", .str "auto_extracted"), ("source_agent_id", .str bundle.agentId), ("source_kind", .str item.kind),
      ("source_root_turn_id", .str bundle.rootTurnId), ("source_session_id", .str bundle.sessionId)]
  nodup := show ["capture_id", "capture_ordinal", "normalized_key", "source", "source_agent_id", "source_kind",
    "source_root_turn_id", "source_session_id"].Nodup by decide

inductive CaptureError where
  /-- The capture id was committed with another report. -/
  | otherReport (captureId : String)
  /-- A candidate has the id already. -/
  | integrity
  deriving DecidableEq

section Bundles

-- `hashlib.sha256(..).hexdigest()` of an encoded text
variable (sha256 : List Char → String)

def stableHash (payload : Value) : String := sha256 (dumps payload)

def reportHash (bundle : CaptureBundleInput) : String := stableHash sha256 bundle.reportPayload

def captureOutputId (captureId normalizedKey : String) (ordinal : ℕ) : String :=
  "cand_" ++ String.ofList ((stableHash sha256 (.list [.str captureId, .str normalizedKey, .number (.ofNat ordinal)])).toList.take 24)

def captureResultHash (outputIds : List String) (disposition : String) : String :=
  stableHash sha256 (.dict (sortKeys [("output_ids", .list (outputIds.map .str)), ("disposition", .str disposition)]))

def outputIds (bundle : CaptureBundleInput) : List String :=
  (capturableCandidates bundle).map fun (ordinal, item, _) => captureOutputId sha256 bundle.captureId item.normalizedKey ordinal

def disposition (bundle : CaptureBundleInput) : String :=
  if (outputIds sha256 bundle).isEmpty then "succeeded_no_output" else "succeeded"

def bundleReceipt (bundle : CaptureBundleInput) (now : String) : CaptureBundleReceipt where
  captureId := bundle.captureId
  reportHash := reportHash sha256 bundle
  resultHash := captureResultHash sha256 (outputIds sha256 bundle) (disposition sha256 bundle)
  outputIds := outputIds sha256 bundle
  disposition := disposition sha256 bundle
  committedAt := now

def candidateRow (bundle : CaptureBundleInput) (now : String) (ordinal : ℕ) (item : CaptureCandidateInput)
    (recordType : String) : MemoryCandidate where
  candidateId := captureOutputId sha256 bundle.captureId item.normalizedKey ordinal
  sessionId := bundle.sessionId
  proposedScope := "agent:" ++ bundle.agentId
  recordType := recordType
  key := some item.normalizedKey
  title := some (strip item.title)
  content := .str (strip item.content)
  tags := item.tags
  source := "agent_inferred"
  confidence := clampConfidence item.confidence
  evidenceRefs := [⟨bundle.captureId, "application/x-openminion-capture", reportHash sha256 bundle, 0, some "assured-capture"⟩]
  metadata := captureMetadata bundle ordinal item
  status := "proposed"
  createdAt := now
  updatedAt := now

def candidateRows (bundle : CaptureBundleInput) (now : String) : List MemoryCandidate :=
  (capturableCandidates bundle).map fun (ordinal, item, recordType) => candidateRow sha256 bundle now ordinal item recordType

def insertCandidates : List MemoryCandidate → List MemoryCandidate → Option (List MemoryCandidate)
  | table, [] => some table
  | table, row :: rows =>
    if (lookup MemoryCandidate.candidateId row.candidateId table).isSome then none
    else insertCandidates (table ++ [row]) rows

def applyCaptureBundle (db : Database) (bundle : CaptureBundleInput) (now : String) :
    Except CaptureError CaptureBundleReceipt × Database :=
  match lookup CaptureBundleReceipt.captureId bundle.captureId db.receipts with
  | some receipt =>
    if receipt.reportHash ≠ reportHash sha256 bundle then (.error (.otherReport bundle.captureId), db) else (.ok receipt, db)
  | none =>
    match insertCandidates db.candidates (candidateRows sha256 bundle now) with
    | none => (.error .integrity, db)
    | some candidates =>
      (.ok (bundleReceipt sha256 bundle now), { db with
        candidates := candidates
        receipts := db.receipts ++ [bundleReceipt sha256 bundle now] })

inductive Fate where
  | returns
  | stopsBeforeCommit
  | stopsAfterCommit
  deriving DecidableEq

structure Attempt where
  bundle : CaptureBundleInput
  now : String
  fate : Fate

def attemptResult (db : Database) (a : Attempt) : Option (Except CaptureError CaptureBundleReceipt) × Database :=
  match a.fate with
  | .returns => ((some (applyCaptureBundle sha256 db a.bundle a.now).1), (applyCaptureBundle sha256 db a.bundle a.now).2)
  | .stopsBeforeCommit => (none, db)
  | .stopsAfterCommit => (none, (applyCaptureBundle sha256 db a.bundle a.now).2)

def reply (db : Database) (a : Attempt) : Option (Except CaptureError CaptureBundleReceipt) := (attemptResult sha256 db a).1

def stepAttempt (db : Database) (a : Attempt) : Database := (attemptResult sha256 db a).2

def committed (db : Database) (a : Attempt) : Option (CaptureBundleInput × String) :=
  if a.fate = .stopsBeforeCommit ∨ (lookup CaptureBundleReceipt.captureId a.bundle.captureId db.receipts).isSome then none
  else (insertCandidates db.candidates (candidateRows sha256 a.bundle a.now)).map fun _ => (a.bundle, a.now)

def commits : Database → List Attempt → List (CaptureBundleInput × String)
  | _, [] => []
  | db, a :: as => (committed sha256 db a).toList ++ commits (stepAttempt sha256 db a) as

variable {sha256} {db : Database}

theorem asPayload_eq (item : CaptureCandidateInput) : item.asPayload =
    .dict [("confidence", .number (.ofNumber item.confidence)), ("content", .str item.content), ("kind", .str item.kind),
      ("normalized_key", .str item.normalizedKey), ("tags", .list (item.tags.map .str)), ("title", .str item.title)] := by
  simp +decide [CaptureCandidateInput.asPayload, sortKeys, List.insertionSort, List.orderedInsert]

theorem reportPayload_eq (bundle : CaptureBundleInput) : bundle.reportPayload =
    .dict [("agent_id", .str bundle.agentId), ("candidates", .list (bundle.candidates.map CaptureCandidateInput.asPayload)),
      ("root_turn_id", .str bundle.rootTurnId), ("session_id", .str bundle.sessionId)] := by
  simp +decide [CaptureBundleInput.reportPayload, sortKeys, List.insertionSort, List.orderedInsert]

theorem asPayload_injective : Function.Injective CaptureCandidateInput.asPayload := by
  intro a b h
  rw [asPayload_eq, asPayload_eq] at h
  simp only [Value.dict.injEq, List.cons.injEq, Prod.mk.injEq, Value.number.injEq, Value.str.injEq, Value.list.injEq, true_and,
    and_true] at h
  obtain ⟨hconfidence, hcontent, hkind, hkey, htags, htitle⟩ := h
  have htexts : repr a.confidence = repr b.confidence := congrArg NumberText.text hconfidence
  have hstr : Function.Injective Value.str := fun s t h => Value.str.inj h
  cases a
  cases b
  simp only [CaptureCandidateInput.mk.injEq]
  exact ⟨hkind, hkey, htitle, hcontent, List.map_injective_iff.mpr hstr htags, repr_injective htexts⟩

theorem reportHash_eq_iff (hsha : Function.Injective sha256) (a b : CaptureBundleInput) :
    reportHash sha256 a = reportHash sha256 b ↔ SameReport a b := by
  constructor
  · intro h
    have hpayload := dumps_injective (hsha h)
    rw [reportPayload_eq, reportPayload_eq] at hpayload
    simp only [Value.dict.injEq, List.cons.injEq, Prod.mk.injEq, Value.str.injEq, Value.list.injEq, true_and, and_true] at hpayload
    obtain ⟨hagent, hcandidates, hroot, hsession⟩ := hpayload
    exact ⟨hroot, hsession, hagent, List.map_injective_iff.mpr asPayload_injective hcandidates⟩
  · rintro ⟨hroot, hsession, hagent, hcandidates⟩
    rw [reportHash, reportHash, reportPayload_eq, reportPayload_eq, hroot, hsession, hagent, hcandidates]

theorem insertCandidates_eq_some {table rows after : List MemoryCandidate} (h : insertCandidates table rows = some after) :
    after = table ++ rows := by
  induction rows generalizing table with
  | nil =>
    cases h
    exact (List.append_nil _).symm
  | cons row rows ih =>
    rw [insertCandidates] at h
    split at h
    · cases h
    · rw [ih h, List.append_assoc, List.singleton_append]

def withBundle (sha256 : List Char → String) (db : Database) (c : CaptureBundleInput × String) : Database :=
  { db with
    candidates := db.candidates ++ candidateRows sha256 c.1 c.2
    receipts := db.receipts ++ [bundleReceipt sha256 c.1 c.2] }

theorem committed_some {a : Attempt} {c : CaptureBundleInput × String} (h : committed sha256 db a = some c) :
    c = (a.bundle, a.now) ∧ lookup CaptureBundleReceipt.captureId c.1.captureId db.receipts = none ∧
      stepAttempt sha256 db a = withBundle sha256 db c ∧
      (a.fate = .returns → reply sha256 db a = some (.ok (bundleReceipt sha256 c.1 c.2))) := by
  rw [committed] at h
  split at h
  · cases h
  · next hopen =>
    obtain ⟨hfate, hreceipt⟩ := not_or.mp hopen
    rw [Option.not_isSome_iff_eq_none] at hreceipt
    obtain ⟨candidates, hinsert, rfl⟩ := Option.map_eq_some_iff.mp h
    have happly : applyCaptureBundle sha256 db a.bundle a.now =
        (.ok (bundleReceipt sha256 a.bundle a.now), withBundle sha256 db (a.bundle, a.now)) := by
      rw [applyCaptureBundle, hreceipt]
      dsimp only
      rw [hinsert, insertCandidates_eq_some hinsert]
      rfl
    refine ⟨rfl, hreceipt, ?_, ?_⟩
    · rw [stepAttempt, attemptResult]
      cases hcase : a.fate with
      | returns => exact congrArg Prod.snd happly
      | stopsBeforeCommit => exact absurd hcase hfate
      | stopsAfterCommit => exact congrArg Prod.snd happly
    · intro hreturns
      rw [reply, attemptResult, hreturns]
      exact congrArg some (congrArg Prod.fst happly)

theorem stepAttempt_of_committed_none {a : Attempt} (h : committed sha256 db a = none) : stepAttempt sha256 db a = db := by
  rw [committed] at h
  have hunchanged : a.fate ≠ .stopsBeforeCommit → (applyCaptureBundle sha256 db a.bundle a.now).2 = db := by
    intro hfate
    rw [applyCaptureBundle]
    cases hreceipt : lookup CaptureBundleReceipt.captureId a.bundle.captureId db.receipts with
    | some receipt =>
      dsimp only
      split
      · rfl
      · rfl
    | none =>
      rw [if_neg (by simp [hfate, hreceipt]), Option.map_eq_none_iff] at h
      rw [h]
  rw [stepAttempt, attemptResult]
  cases hcase : a.fate with
  | returns => exact hunchanged (by simp [hcase])
  | stopsBeforeCommit => rfl
  | stopsAfterCommit => exact hunchanged (by simp [hcase])

theorem attempt_of_receipt (hsha : Function.Injective sha256) {a : Attempt} {c : CaptureBundleInput × String}
    (h : lookup CaptureBundleReceipt.captureId a.bundle.captureId db.receipts = some (bundleReceipt sha256 c.1 c.2)) :
    stepAttempt sha256 db a = db ∧
      (a.fate = .returns → reply sha256 db a = some (if SameReport a.bundle c.1 then .ok (bundleReceipt sha256 c.1 c.2)
        else .error (.otherReport a.bundle.captureId))) := by
  constructor
  · apply stepAttempt_of_committed_none
    rw [committed, if_pos (.inr (by rw [h]; rfl))]
  · intro hreturns
    have hhash : (bundleReceipt sha256 c.1 c.2).reportHash = reportHash sha256 a.bundle ↔ SameReport a.bundle c.1 := by
      rw [← reportHash_eq_iff hsha]
      exact eq_comm
    rw [reply, attemptResult, hreturns]
    dsimp only
    rw [applyCaptureBundle, h]
    dsimp only
    by_cases hsame : SameReport a.bundle c.1
    · rw [if_neg (not_not.mpr (hhash.mpr hsame)), if_pos hsame]
    · rw [if_pos (mt hhash.mp hsame), if_neg hsame]

theorem run_withBundles (db : Database) (as : List Attempt) :
    run (stepAttempt sha256) db as = (commits sha256 db as).foldl (withBundle sha256) db := by
  induction as generalizing db with
  | nil => rfl
  | cons a as ih =>
    rw [run_cons, ih, commits, List.foldl_append]
    cases hcommitted : committed sha256 db a with
    | none => rw [stepAttempt_of_committed_none hcommitted]; rfl
    | some c => rw [(committed_some hcommitted).2.2.1]; rfl

theorem foldl_withBundle (cs : List (CaptureBundleInput × String)) (db : Database) :
    cs.foldl (withBundle sha256) db = { db with
      candidates := db.candidates ++ cs.flatMap fun c => candidateRows sha256 c.1 c.2
      receipts := db.receipts ++ cs.map fun c => bundleReceipt sha256 c.1 c.2 } := by
  induction cs generalizing db with
  | nil => simp
  | cons c cs ih =>
    rw [List.foldl_cons, ih, withBundle]
    simp

theorem lookup_of_mem_commits {as : List Attempt} {c : CaptureBundleInput × String} (h : c ∈ commits sha256 db as) :
    lookup CaptureBundleReceipt.captureId c.1.captureId db.receipts = none := by
  induction as generalizing db with
  | nil => cases h
  | cons a as ih =>
    rw [commits] at h
    rcases List.mem_append.mp h with hhead | htail
    · exact (committed_some (Option.mem_toList.mp hhead)).2.1
    · have hlater := ih htail
      cases hcommitted : committed sha256 db a with
      | none => rwa [stepAttempt_of_committed_none hcommitted] at hlater
      | some c' =>
        rw [(committed_some hcommitted).2.2.1, lookup_eq_none] at hlater
        rw [lookup_eq_none]
        intro r hr
        exact hlater r (List.mem_append_left _ hr)

theorem nodup_commits (db : Database) (as : List Attempt) :
    ((commits sha256 db as).map fun c => c.1.captureId).Nodup := by
  induction as generalizing db with
  | nil => exact List.nodup_nil
  | cons a as ih =>
    rw [commits, List.map_append, List.nodup_append]
    refine ⟨?_, ih _, ?_⟩
    · cases committed sha256 db a with
      | none => exact List.nodup_nil
      | some c => exact List.nodup_singleton _
    · intro x hx y hy hxy
      obtain ⟨c, hc, rfl⟩ := List.mem_map.mp hx
      obtain ⟨c', hc', rfl⟩ := List.mem_map.mp hy
      have hstep := (committed_some (Option.mem_toList.mp hc)).2.2.1
      have hlater := lookup_of_mem_commits hc'
      rw [hstep, lookup_eq_none] at hlater
      exact hlater _ (List.mem_append_right _ (List.mem_singleton_self _)) hxy

theorem lookup_commits {as : List Attempt} {c : CaptureBundleInput × String} (h : c ∈ commits sha256 db as) :
    lookup CaptureBundleReceipt.captureId c.1.captureId (run (stepAttempt sha256) db as).receipts =
      some (bundleReceipt sha256 c.1 c.2) := by
  rw [run_withBundles, foldl_withBundle]
  have hnone := lookup_of_mem_commits h
  have hunique : UniqueKey CaptureBundleReceipt.captureId ((commits sha256 db as).map fun c => bundleReceipt sha256 c.1 c.2) := by
    rw [UniqueKey, List.map_map]
    exact nodup_commits db as
  have hfound := hunique.lookup_eq_some_iff.mpr ⟨List.mem_map_of_mem h, rfl⟩
  rw [lookup] at hnone hfound ⊢
  rw [List.find?_append, hnone]
  exact hfound

/-- What a run of attempts does with the bundles of its capture ids. -/
structure AppliedOnce (sha256 : List Char → String) (db : Database) (attempts : List Attempt) : Prop where
  /-- Every committed bundle adds its rows, and nothing else is written. -/
  tables : run (stepAttempt sha256) db attempts = { db with
    candidates := db.candidates ++ (commits sha256 db attempts).flatMap fun c => candidateRows sha256 c.1 c.2
    receipts := db.receipts ++ (commits sha256 db attempts).map fun c => bundleReceipt sha256 c.1 c.2 }
  /-- No capture id is committed twice. -/
  once : ((commits sha256 db attempts).map fun c => c.1.captureId).Nodup
  /-- The call that commits returns the receipt of its bundle. -/
  first : ∀ before a after c, attempts = before ++ a :: after →
    committed sha256 (run (stepAttempt sha256) db before) a = some c →
    c = (a.bundle, a.now) ∧
      (a.fate = .returns → reply sha256 (run (stepAttempt sha256) db before) a = some (.ok (bundleReceipt sha256 c.1 c.2)))
  /-- A later call of the capture id writes nothing: it returns that receipt or raises where its report is another. -/
  later : ∀ before a after c, attempts = before ++ a :: after → c ∈ commits sha256 db before →
    a.bundle.captureId = c.1.captureId →
    stepAttempt sha256 (run (stepAttempt sha256) db before) a = run (stepAttempt sha256) db before ∧
      (a.fate = .returns → reply sha256 (run (stepAttempt sha256) db before) a =
        some (if SameReport a.bundle c.1 then .ok (bundleReceipt sha256 c.1 c.2) else .error (.otherReport a.bundle.captureId)))

/-- Capture bundles are applied exactly once, in every interleaving of the calls and wherever
their processes stop. -/
theorem applied_exactly_once (hsha : Function.Injective sha256) (db : Database) (attempts : List Attempt) :
    AppliedOnce sha256 db attempts where
  tables := by rw [run_withBundles, foldl_withBundle]
  once := nodup_commits db attempts
  first := by
    intro before a after c _ hcommitted
    obtain ⟨hbundle, -, -, hreply⟩ := committed_some hcommitted
    exact ⟨hbundle, hreply⟩
  later := by
    intro before a after c _ hmem hid
    have hlookup := lookup_commits hmem
    rw [← hid] at hlookup
    exact attempt_of_receipt hsha hlookup

/-- A bundle with one fact, applied by a process that stops after its commit and by two more,
one of them with another title. -/
def factAttempts : List Attempt :=
  let bundle (title : String) : CaptureBundleInput := ⟨"cap", "turn", "s", "a", [⟨"fact", "k", title, "tea", [], .nan⟩]⟩
  [⟨bundle "drink", "t0", .stopsAfterCommit⟩, ⟨bundle "drink", "t1", .returns⟩, ⟨bundle "food", "t2", .returns⟩]

theorem factAttempts_applied : Function.Injective String.ofList ∧ AppliedOnce String.ofList {} factAttempts ∧
    (run (stepAttempt String.ofList) {} factAttempts).candidates.length = 1 := by
  have hinjective : Function.Injective String.ofList := fun _ _ h => String.ofList_injective h
  refine ⟨hinjective, applied_exactly_once hinjective {} factAttempts, ?_⟩
  decide +kernel

end Bundles

end OpenMinion.CaptureBundles
