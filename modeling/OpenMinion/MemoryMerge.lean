import OpenMinion.AbortableLoops
import OpenMinion.MemoryStore

/-!
# Importing memory bundles

`import_snapshot` writes the records of a bundle one by one, then its candidates, relations and tier transitions. Each
write is committed by itself, so that an error leaves what was written before it.
-/
namespace OpenMinion.MemoryMerge
open AbortableLoops JsonValues KeyedTables MemoryStore PythonText

inductive TrustMode where
  | direct
  | candidate
  deriving DecidableEq

inductive ConflictMode where
  | skip
  | supersede
  | error
  deriving DecidableEq

inductive IdMode where
  | preserve
  | regenerate
  deriving DecidableEq

def TrustMode.ofText (text : String) : Option TrustMode :=
  if text = "direct" then some .direct else if text = "candidate" then some .candidate else none

def ConflictMode.text : ConflictMode → String
  | .skip => "skip"
  | .supersede => "supersede"
  | .error => "error"

def ConflictMode.ofText (text : String) : Option ConflictMode :=
  if text = "skip" then some .skip
  else if text = "supersede" then some .supersede
  else if text = "error" then some .error
  else none

def IdMode.ofText (text : String) : Option IdMode :=
  if text = "preserve" then some .preserve else if text = "regenerate" then some .regenerate else none

@[simp] theorem ConflictMode.ofText_text (mode : ConflictMode) : ConflictMode.ofText mode.text = some mode := by
  cases mode <;> decide

structure MemoryBundleImportOptions where
  scopeRewrites : List (String × String) := []
  trustMode : String
  conflictMode : String
  idMode : String
  dryRun : Bool := false

structure MemoryBundleSnapshot where
  bundleId : String
  sourceInstance : Json := .dict []
  records : List MemoryRecord := []
  candidates : List MemoryCandidate := []
  relations : List MemoryRelation := []
  tierTransitions : List MemoryTierTransition := []
  provenanceTraces : List Json := []

inductive ConflictReason where
  | exactIdConflict
  | normalizedKeyConflict
  deriving DecidableEq

structure Conflict where
  recordId : String
  targetId : String
  reason : ConflictReason
  deriving DecidableEq

structure MemoryBundleImportResult where
  applied : Bool
  trustMode : String
  conflictMode : String
  idMode : String
  importedRecords : ℕ := 0
  importedCandidates : ℕ := 0
  importedRelations : ℕ := 0
  importedTierTransitions : ℕ := 0
  importedProvenanceTraces : ℕ := 0
  skippedRecords : ℕ := 0
  stagedCandidates : ℕ := 0
  conflicts : List Conflict := []
  skippedSections : List String := []
  rewrites : List (String × String) := []
  deriving DecidableEq

inductive ImportError where
  | invalidArgument (message : String)
  /-- A model does not accept its fields. -/
  | invalidModel
  | store (error : StoreError)
  deriving DecidableEq

structure Call where
  now : String
  newId : String → ℕ → String

structure DirectImport where
  env : Environment
  call : Call
  snapshot : MemoryBundleSnapshot
  scopeRewrites : List (String × String)
  conflictMode : ConflictMode
  idMode : IdMode
  dryRun : Bool

def sameNamespace : Option Json → Option Json → Bool
  | none, none => true
  | some a, some b => a.pyEq b
  | _, _ => false

def sameMetadata (a b : Metadata) : Bool := (Json.dict a.items).pyEq (.dict b.items)

/-- The fields of a record that `_record_equal` compares as they are. -/
def comparedFields (r : MemoryRecord) (ignoreId : Bool) : MemoryRecord :=
  { r with
    id := if ignoreId then "" else r.id
    recordNamespace := none
    content := .null
    metadata := .empty
    lastHitAt := none
    createdAt := ""
    updatedAt := ""
    supersedesId := none
    supersededById := none
    supersessionReason := none }

def recordEqual (left right : MemoryRecord) (ignoreId : Bool) : Bool :=
  comparedFields left ignoreId = comparedFields right ignoreId && sameNamespace left.recordNamespace right.recordNamespace &&
    left.content.pyEq right.content && sameMetadata left.metadata right.metadata

/-- `_candidate_equal` with the ids. -/
def candidateEqual (left right : MemoryCandidate) : Bool :=
  let fields := fun c : MemoryCandidate =>
    { c with content := .null, metadata := .empty, review := none, createdAt := "", updatedAt := "", sessionId := "" }
  fields left = fields right && left.content.pyEq right.content && sameMetadata left.metadata right.metadata &&
    sameNamespace left.review right.review

abbrev IdMap := List (String × String)

/-- `id_map.get(id, id)`. -/
def IdMap.get (m : IdMap) (id : String) : String := ((lookup Prod.fst id m).map Prod.snd).getD id

def IdMap.set (m : IdMap) (id target : String) : IdMap := upsertRow Prod.fst (id, target) m

def rewriteScope (rewrites : List (String × String)) (scope : String) : String :=
  ((lookup Prod.fst (strip scope) rewrites).map Prod.snd).getD (strip scope)

def stamp (m : Metadata) (snapshot : MemoryBundleSnapshot) (now : String) : Metadata :=
  ((m.set "import_bundle_id" (.str snapshot.bundleId)).set "imported_at" (.str now)).set "import_source_instance"
    snapshot.sourceInstance

def prepareRecordIdMap (rows : List MemoryRecord) (records : List MemoryRecord) (conflictMode : ConflictMode) (idMode : IdMode)
    (call : Call) : IdMap :=
  let renamed := fun r : MemoryRecord =>
    match idMode, conflictMode with
    | .regenerate, _ => true
    | .preserve, .supersede => (lookup MemoryRecord.id r.id rows).any fun existing => !recordEqual existing r false
    | .preserve, _ => false
  records.zipIdx.foldl (fun m item => if renamed item.1 then m.set item.1.id (call.newId "mem" item.2) else m) []

def rewrittenRecord (env : Environment) (snapshot : MemoryBundleSnapshot) (rewrites : List (String × String)) (now : String)
    (idMap : IdMap) (r : MemoryRecord) : MemoryRecord :=
  let scope := rewriteScope rewrites r.scope
  { r with
    id := idMap.get r.id
    scope
    recordNamespace := if sameNamespace r.recordNamespace (some (env.fromScope r.scope)) then some (env.fromScope scope)
      else r.recordNamespace
    metadata := stamp r.metadata snapshot now
    supersedesId := if truthy r.supersedesId then r.supersedesId.map idMap.get else none
    supersededById := if truthy r.supersededById then r.supersededById.map idMap.get else none }

/-- `replace` checks the scopes of the records before the first write. -/
def scopesAccepted (env : Environment) (rewrites : List (String × String)) (records : List MemoryRecord) : Bool :=
  records.all fun r => env.validScope (rewriteScope rewrites r.scope)

def counted (count : ℕ) (write : Store × Option StoreError) : (Store × ℕ) × Option ImportError :=
  match write with
  | (s, some e) => ((s, count), some (.store e))
  | (s, none) => ((s, count + 1), none)

@[simp] theorem store_counted (count : ℕ) (write : Store × Option StoreError) : (counted count write).1.1 = write.1 := by
  obtain ⟨s, e⟩ := write
  cases e <;> rfl

@[simp] theorem counted_eq_none_iff (count : ℕ) (write : Store × Option StoreError) :
    (counted count write).2 = none ↔ write.2 = none := by
  obtain ⟨s, e⟩ := write
  cases e <;> simp [counted]

namespace DirectImport

variable (i : DirectImport)

def rewriteCandidate (item : MemoryCandidate × ℕ) : Except ImportError MemoryCandidate :=
  let c := item.1
  let proposedScope := rewriteScope i.scopeRewrites c.proposedScope
  if i.env.validScope proposedScope then
    .ok { c with
      candidateId := if i.idMode = .regenerate then i.call.newId "cand" item.2 else c.candidateId
      proposedScope
      metadata := stamp c.metadata i.snapshot i.call.now }
  else .error .invalidModel

def rewriteRelation (idMap : IdMap) (item : MemoryRelation × ℕ) : Except ImportError (Option MemoryRelation) :=
  let r := item.1
  let sourceId := idMap.get r.sourceRecordId
  let targetId := idMap.get r.targetRecordId
  if sourceId = "" || targetId = "" then .ok none
  else if i.env.validRelation sourceId targetId then
    .ok (some { r with
      relationId := if i.idMode = .regenerate then i.call.newId "rel" item.2 else r.relationId
      sourceRecordId := sourceId
      targetRecordId := targetId })
  else .error .invalidModel

def rewriteTierTransition (idMap : IdMap) (item : MemoryTierTransition × ℕ) :
    Except ImportError (Option MemoryTierTransition) :=
  let t := item.1
  let recordId := idMap.get t.recordId
  let scope := rewriteScope i.scopeRewrites t.scope
  if recordId = "" then .ok none
  else if i.env.validScope scope then
    .ok (some { t with
      transitionId := if i.idMode = .regenerate then i.call.newId "mtt" item.2 else t.transitionId
      recordId
      scope })
  else .error .invalidModel

inductive Decision where
  | skip (target : Option String)
  | conflict (target : String) (reason : ConflictReason)
  | write (superseded : Option String)
  deriving DecidableEq

def existingExact (rows : List MemoryRecord) (record : MemoryRecord) : Option MemoryRecord :=
  lookup MemoryRecord.id record.id rows

def existingKey (rows : List MemoryRecord) (record : MemoryRecord) : Option MemoryRecord :=
  if truthy record.key then findRecordByNormalizedKey i.env rows record.scope record.recordType record.key i.call.now else none

def equalRow (rows : List MemoryRecord) (record : MemoryRecord) : Option MemoryRecord :=
  ((existingExact rows record).filter fun row => recordEqual row record false).or
    ((i.existingKey rows record).filter fun row => recordEqual row record true)

def conflictOf (rows : List MemoryRecord) (record : MemoryRecord) : Option (String × ConflictReason) :=
  match existingExact rows record with
  | some row => some (row.id, .exactIdConflict)
  | none => ((i.existingKey rows record).filter fun row => row.id ≠ record.id).map fun row => (row.id, .normalizedKeyConflict)

def decision (rows : List MemoryRecord) (record : MemoryRecord) : Decision :=
  match i.equalRow rows record with
  | some row => .skip (some row.id)
  | none =>
    match i.conflictOf rows record, i.conflictMode with
    | some (target, reason), .error => .conflict target reason
    | some (target, _), .skip => .skip (if target = "" then none else some target)
    | some (target, .normalizedKeyConflict), .supersede => .write (if target = "" then none else some target)
    | _, _ => .write none

structure Progress where
  store : Store
  idMap : IdMap
  conflicts : List Conflict := []
  importedRecords : ℕ := 0
  skippedRecords : ℕ := 0

def Progress.imported (p : Progress) (sourceId recordId : String) : Progress :=
  { p with idMap := p.idMap.set sourceId recordId, importedRecords := p.importedRecords + 1 }

def writeRecord (s : Store) (record : MemoryRecord) (superseded : Option String) : Store × Option StoreError :=
  match s.put i.env record, superseded with
  | (s, some e), _ => (s, some e)
  | (s, none), none => (s, none)
  | (s, none), some oldId => s.supersedeByContradiction i.env oldId record.id "bundle_import" i.call.now

def importRecord (p : Progress) (item : MemoryRecord × MemoryRecord) : Progress × Option ImportError :=
  match i.decision p.store.records item.2 with
  | .skip target =>
    ({ p with
      idMap := match target with
        | none => p.idMap
        | some id => p.idMap.set item.1.id id
      skippedRecords := p.skippedRecords + 1 }, none)
  | .conflict target reason => ({ p with conflicts := p.conflicts ++ [⟨item.1.id, target, reason⟩] }, none)
  | .write superseded =>
    if i.dryRun then (p.imported item.1.id item.2.id, none)
    else
      match i.writeRecord p.store item.2 superseded with
      | (s, some e) => ({ p with store := s }, some (.store e))
      | (s, none) => ({ p with store := s }.imported item.1.id item.2.id, none)

theorem importRecord_of_write {p : Progress} {item : MemoryRecord × MemoryRecord} {superseded : Option String}
    (h : i.decision p.store.records item.2 = .write superseded) (hdry : i.dryRun = false) :
    (i.importRecord p item).1.store = (i.writeRecord p.store item.2 superseded).1 ∧
      ((i.importRecord p item).2 = none ↔ (i.writeRecord p.store item.2 superseded).2 = none) := by
  simp only [importRecord, h, hdry, Bool.false_eq_true, if_false]
  split
  · next heq => simp [heq]
  · next heq => simp [heq, Progress.imported]

def importCandidate (p : Store × ℕ) (item : MemoryCandidate × ℕ) : (Store × ℕ) × Option ImportError :=
  match i.rewriteCandidate item with
  | .error e => (p, some e)
  | .ok c =>
    if (p.1.candidateGet c.candidateId).any fun existing => candidateEqual existing c then (p, none)
    else if i.dryRun then ((p.1, p.2 + 1), none)
    else counted p.2 (p.1.candidatePut i.env c i.call.now)

def importRelation (idMap : IdMap) (p : Store × ℕ) (item : MemoryRelation × ℕ) : (Store × ℕ) × Option ImportError :=
  match i.rewriteRelation idMap item with
  | .error e => (p, some e)
  | .ok none => (p, none)
  | .ok (some r) =>
    if i.dryRun then ((p.1, p.2 + 1), none)
    else counted p.2 (p.1.putRelation r)

def importTierTransition (idMap : IdMap) (p : Store × ℕ) (item : MemoryTierTransition × ℕ) :
    (Store × ℕ) × Option ImportError :=
  match i.rewriteTierTransition idMap item with
  | .error e => (p, some e)
  | .ok none => (p, none)
  | .ok (some t) =>
    if i.dryRun then ((p.1, p.2 + 1), none)
    else counted p.2 (p.1.putTierTransition t)

def items (idMap : IdMap) : List (MemoryRecord × MemoryRecord) :=
  i.snapshot.records.map fun r => (r, rewrittenRecord i.env i.snapshot i.scopeRewrites i.call.now idMap r)

def importRecords (s : Store) : Progress × Option ImportError :=
  let idMap := prepareRecordIdMap s.records i.snapshot.records i.conflictMode i.idMode i.call
  runUntil i.importRecord { store := s, idMap } (i.items idMap)

def importRest (s : Store) (idMap : IdMap) : Except ImportError (ℕ × ℕ × ℕ) × Store :=
  let candidates := runUntil i.importCandidate (s, 0) i.snapshot.candidates.zipIdx
  match candidates.2 with
  | some e => (.error e, candidates.1.1)
  | none =>
    let relations := runUntil (i.importRelation idMap) (candidates.1.1, 0) i.snapshot.relations.zipIdx
    match relations.2 with
    | some e => (.error e, relations.1.1)
    | none =>
      let tierTransitions := runUntil (i.importTierTransition idMap) (relations.1.1, 0) i.snapshot.tierTransitions.zipIdx
      match tierTransitions.2 with
      | some e => (.error e, tierTransitions.1.1)
      | none => (.ok (candidates.1.2, relations.1.2, tierTransitions.1.2), tierTransitions.1.1)

end DirectImport

/-- `_import_candidate_mode` stages a candidate for each record. -/
def stagedCandidate (snapshot : MemoryBundleSnapshot) (call : Call) (item : MemoryRecord × ℕ) : MemoryCandidate :=
  let r := item.1
  { candidateId := call.newId "cand" item.2
    sessionId := "import:" ++ if snapshot.bundleId = "" then "bundle" else snapshot.bundleId
    proposedScope := r.scope
    recordType := r.recordType
    key := r.key
    title := r.title
    content := r.content
    tags := r.tags
    entities := r.entities
    source := "imported"
    confidence := if r.confidence = 0 then 1 / 2 else r.confidence
    evidenceRefs := r.evidenceRefs
    metadata := (r.metadata.set "import_source_record_id" (.str r.id)).set "import_source_scope" (.str r.scope)
    createdAt := call.now
    updatedAt := call.now }

def stageCandidate (env : Environment) (call : Call) (dryRun : Bool) (p : Store × ℕ) (c : MemoryCandidate) :
    (Store × ℕ) × Option ImportError :=
  if dryRun then ((p.1, p.2 + 1), none)
  else counted p.2 (p.1.candidatePut env c call.now)

def skippedSections (snapshot : MemoryBundleSnapshot) : List String :=
  (if snapshot.candidates = [] then [] else ["candidates"]) ++ (if snapshot.relations = [] then [] else ["relations"]) ++
    (if snapshot.tierTransitions = [] then [] else ["tier_transitions"]) ++
    if snapshot.provenanceTraces = [] then [] else ["provenance_traces"]

def staged (env : Environment) (snapshot : MemoryBundleSnapshot) (rewrites : List (String × String)) (call : Call) :
    List MemoryCandidate :=
  (snapshot.records.map (rewrittenRecord env snapshot rewrites call.now [])).zipIdx.map (stagedCandidate snapshot call)

def importCandidateMode (env : Environment) (snapshot : MemoryBundleSnapshot) (options : MemoryBundleImportOptions)
    (call : Call) (s : Store) : Except ImportError MemoryBundleImportResult × Store :=
  match runUntil (stageCandidate env call options.dryRun) (s, 0) (staged env snapshot options.scopeRewrites call) with
  | ((s, _), some e) => (.error e, s)
  | ((s, count), none) =>
    (.ok
      { applied := !options.dryRun
        trustMode := options.trustMode
        conflictMode := options.conflictMode
        idMode := "generated_candidates"
        stagedCandidates := count
        skippedSections := skippedSections snapshot
        rewrites := options.scopeRewrites }, s)

def importDirectMode (i : DirectImport) (options : MemoryBundleImportOptions) (s : Store) :
    Except ImportError MemoryBundleImportResult × Store :=
  let result : MemoryBundleImportResult :=
    { applied := false
      trustMode := options.trustMode
      conflictMode := options.conflictMode
      idMode := options.idMode
      rewrites := options.scopeRewrites }
  match i.importRecords s with
  | (p, some e) => (.error e, p.store)
  | (p, none) =>
    let result := { result with
      importedRecords := p.importedRecords
      skippedRecords := p.skippedRecords
      conflicts := p.conflicts }
    if p.conflicts ≠ [] then (.ok result, p.store)
    else
      match i.importRest p.store p.idMap with
      | (.error e, s) => (.error e, s)
      | (.ok (candidates, relations, tierTransitions), s) =>
        (.ok { result with
          applied := !i.dryRun
          importedCandidates := candidates
          importedRelations := relations
          importedTierTransitions := tierTransitions
          importedProvenanceTraces := i.snapshot.provenanceTraces.length }, s)

def importSnapshot (env : Environment) (snapshot : MemoryBundleSnapshot) (options : MemoryBundleImportOptions) (call : Call)
    (s : Store) : Except ImportError MemoryBundleImportResult × Store :=
  match TrustMode.ofText options.trustMode, ConflictMode.ofText options.conflictMode, IdMode.ofText options.idMode with
  | none, _, _ => (.error (.invalidArgument "trust_mode must be 'direct' or 'candidate'"), s)
  | _, none, _ => (.error (.invalidArgument "conflict_mode must be 'skip', 'supersede', or 'error'"), s)
  | _, _, none => (.error (.invalidArgument "id_mode must be 'preserve' or 'regenerate'"), s)
  | some trustMode, some conflictMode, some idMode =>
    if scopesAccepted env options.scopeRewrites snapshot.records then
      match trustMode with
      | .candidate => importCandidateMode env snapshot options call s
      | .direct => importDirectMode
          { env, call, snapshot, scopeRewrites := options.scopeRewrites, conflictMode, idMode, dryRun := options.dryRun } options s
    else (.error .invalidModel, s)

end OpenMinion.MemoryMerge
