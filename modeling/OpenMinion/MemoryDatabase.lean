import OpenMinion.MemoryStore

/-!
# The tables of the SQLite memory store

The operations of `SQLiteMemoryStore` on all of its tables. One in a transaction leaves the tables when it raises
before its commit; `put` commits each statement and adds the artifact references afterwards.
-/
namespace OpenMinion.MemoryDatabase
open JsonValues KeyedTables MemoryStore

/-- A row of `memory_fts`, whose texts are those of these values. -/
structure FtsRow where
  id : String
  scope : String
  recordType : String
  key : Option String
  title : Option String
  content : Json
  tags : List String
  entities : List String
  deriving DecidableEq

structure EntityRow where
  entity : String
  recordId : String
  scope : String
  recordType : String
  createdAt : String
  deriving DecidableEq

structure CaptureBundleReceipt where
  captureId : String
  reportHash : String
  resultHash : String
  outputIds : List String
  disposition : String
  committedAt : String
  deriving DecidableEq

structure Database extends Store where
  fts : List FtsRow := []
  entities : List EntityRow := []
  receipts : List CaptureBundleReceipt := []
  deriving DecidableEq

inductive DatabaseError where
  | store (error : StoreError)
  | candidateNotFound (candidateId : String)
  /-- The candidate is not approved for promotion. -/
  | promotionDenied (candidateId : String)
  /-- The records of a consolidation are stale or outside of its scope. -/
  | staleRecords
  | candidateChanged (candidateId : String)
  | outsideScope (candidateId : String)
  | unsupportedAction (action : String)
  /-- `vars` of a reference that was read from its row as a dictionary. -/
  | unreadableEvidence
  /-- The record model does not accept the row. -/
  | invalidModel
  deriving DecidableEq

inductive Reply where
  | done
  | id (text : String)
  | record (record : MemoryRecord)
  | candidate (candidate : MemoryCandidate)
  deriving DecidableEq

abbrev Outcome := Except DatabaseError Reply × Database

structure Call where
  now : String
  newId : String
  deriving DecidableEq

def ftsRow (r : MemoryRecord) : FtsRow :=
  ⟨r.id, r.scope, r.recordType, r.key, r.title, r.content, r.tags, r.entities⟩

def entityRows (r : MemoryRecord) : List EntityRow :=
  r.entities.map fun entity => ⟨entity, r.id, r.scope, r.recordType, r.createdAt⟩

/-- `INSERT OR IGNORE INTO memory_entities`. -/
def insertEntity (rows : List EntityRow) (row : EntityRow) : List EntityRow :=
  if rows.any fun e => e.entity = row.entity && e.recordId = row.recordId then rows else rows ++ [row]

def findCurrentKeyedRecord (rows : List MemoryRecord) (scope recordType key : String) : Option MemoryRecord :=
  rows.find? fun r => isActive r && r.scope = scope && r.recordType = recordType && r.key = some key

/-- What `apply_supersession` makes of the old row. -/
def retire (newId reason validTo now : String) (r : MemoryRecord) : MemoryRecord :=
  { r with
    supersededById := some newId
    supersessionReason := if reason = "" then none else some reason
    validTo := some validTo
    isDeleted := true
    updatedAt := now }

def renew (oldId now : String) (r : MemoryRecord) : MemoryRecord :=
  { r with
    supersedesId := some oldId
    supersededById := none
    supersessionReason := none
    isDeleted := false
    updatedAt := now }

def applySupersession (db : Database) (oldId newId reason validTo now : String) : Option Database :=
  let retired := updateWhere (fun r => r.id = oldId) (retire newId reason validTo now) db.records
  if retired.any fun r => r.id = newId && keyClash retired (renew oldId now r) then none
  else some { db with
    records := updateWhere (fun r => r.id = newId) (renew oldId now) retired
    fts := deleteWhere (fun row => row.id = oldId) db.fts }

/-- The rows of a record in the tables beside `memory_records`. -/
def Database.indexRecord (db : Database) (r : MemoryRecord) : Database :=
  { db with
    fts := db.fts ++ [ftsRow r]
    entities := (entityRows r).foldl insertEntity db.entities }

def insertReplacing (db : Database) (r : MemoryRecord) (old : Option MemoryRecord) (now : String) : Option Database :=
  if insertFails db.records r then none
  else
    let inserted := { db with records := db.records ++ [r] }
    match old with
    | none => some (inserted.indexRecord r)
    | some old => (applySupersession inserted old.id r.id "keyed_upsert" now now).map fun db => db.indexRecord r

def createRecordFromRow (r : MemoryRecord) : MemoryRecord :=
  { r with
    eventTime := if truthy r.eventTime then r.eventTime else some r.createdAt
    tier := if r.tier = "" then "working" else r.tier }

section Operations

variable (env : Environment)

def Database.reload (db : Database) (recordId : String) : Outcome :=
  match db.get recordId with
  | none => (.error (.store (.notFound recordId)), db)
  | some row =>
    let r := createRecordFromRow row
    if !env.validScope r.scope then (.error .invalidModel, db)
    else if !r.isDeleted && !env.refsActive r.id r.evidenceRefs then (.error (.store .artifactNotFound), db)
    else (.ok (.record r), db)

def Database.put (db : Database) (r : MemoryRecord) : Outcome :=
  if insertFails db.records r then (.error (.store .integrity), db)
  else
    let after := { db with records := db.records ++ [storedRecord r] }.indexRecord r
    if !r.isDeleted && !env.refsActive r.id r.evidenceRefs then (.error (.store .artifactNotFound), after)
    else (.ok (.id r.id), after)

/-- The keys of `record_patch` that are there. -/
structure RecordPatch where
  content : Option Json := none
  tags : Option (List String) := none
  entities : Option (List String) := none
  source : Option String := none
  confidence : Option ℚ := none
  evidenceRefs : Option (List ArtifactRef) := none
  metadata : Option Metadata := none
  expiresAt : Option (Option String) := none
  title : Option (Option String) := none
  recordNamespace : Option (Option Json) := none
  goalId : Option (Option String) := none
  deriving DecidableEq

/-- `dict.update`. -/
def updateDict (d e : Dict) : Dict := e.foldl (fun d item => Dict.set d item.1 item.2) d

def mergedContent (content : Json) (patch : Option Json) : Json :=
  match content, patch.getD (.dict []) with
  | .dict d, .dict e => .dict (updateDict d e)
  | content, _ => patch.getD content

/-- The references of the patch; those of the row are dictionaries, which have no `vars`. -/
def upsertEvidence (row : Option MemoryRecord) (patch : RecordPatch) : Except DatabaseError (List ArtifactRef) :=
  let evidence := patch.evidenceRefs.getD []
  match row with
  | none => .ok evidence
  | some row =>
    if evidence ≠ [] then .ok evidence
    else if row.evidenceRefs = [] then .ok []
    else .error .unreadableEvidence

/-- `_sqlite_upsert_payload`, and the row that `_sqlite_insert_upsert_record` makes of it. -/
def upsertRecord (row : Option MemoryRecord) (scope recordType key : String) (patch : RecordPatch) (call : Call)
    (evidenceRefs : List ArtifactRef) : MemoryRecord :=
  { id := call.newId
    scope
    recordNamespace := patch.recordNamespace.getD (row.bind (·.recordNamespace))
    recordType
    key := some key
    title := patch.title.getD (row.bind (·.title))
    content := match row with
      | none => patch.content.getD (.dict [])
      | some row => mergedContent row.content patch.content
    tags := patch.tags.getD ((row.map (·.tags)).getD [])
    entities := patch.entities.getD ((row.map (·.entities)).getD [])
    source := patch.source.getD ((row.map (·.source)).getD "agent_inferred")
    confidence := patch.confidence.getD ((row.map (·.confidence)).getD (1 / 2))
    evidenceRefs
    expiresAt := patch.expiresAt.getD (row.bind (·.expiresAt))
    metadata := patch.metadata.getD ((row.map (·.metadata)).getD .empty)
    eventTime := some call.now
    createdAt := call.now
    updatedAt := call.now
    supersedesId := row.map (·.id)
    isDeleted := row.isSome }

def Database.upsert (db : Database) (scope recordType key : String) (patch : RecordPatch) (call : Call) : Outcome :=
  let row := findCurrentKeyedRecord db.records scope recordType key
  match upsertEvidence row patch with
  | .error e => (.error e, db)
  | .ok evidence =>
    match insertReplacing db (upsertRecord row scope recordType key patch call evidence) row call.now with
    | none => (.error (.store .integrity), db)
    | some after => after.reload env call.newId

def Database.delete (db : Database) (recordId : String) (reason deletedAt : Option String) (now : String) : Outcome :=
  (.ok .done,
    { db with
      records := updateWhere (fun r => r.id = recordId) (fun r => { r with
        isDeleted := true
        updatedAt := now
        deletedAt := if reason.isSome then some (deletedAt.getD now) else r.deletedAt
        deletedReason := if reason.isSome then reason else r.deletedReason }) db.records
      fts := deleteWhere (fun row => row.id = recordId) db.fts })

def tombstoned (scope recordType key : String) (r : MemoryRecord) : Bool :=
  r.scope = scope && r.recordType = recordType && r.key = some key && isActive r

def Database.tombstone (db : Database) (scope recordType key now : String) : Outcome :=
  let hidden := (db.records.filter (tombstoned scope recordType key)).map (·.id)
  (.ok .done,
    { db with
      records := updateWhere (tombstoned scope recordType key) (fun r => { r with isDeleted := true, updatedAt := now }) db.records
      fts := deleteWhere (fun row => row.id ∈ hidden) db.fts })

def Database.invalidate (db : Database) (recordId validTo now : String) : Outcome :=
  match db.get recordId with
  | none => (.error (.store (.notFound recordId)), db)
  | some row =>
    -- the row is read as a record after the commit
    (if env.validScope row.scope then .ok (.record { createRecordFromRow row with validTo := some validTo, updatedAt := now })
      else .error .invalidModel,
      { db with
        records := updateWhere (fun r => r.id = recordId) (fun r => { r with validTo := some validTo, updatedAt := now }) db.records })

def isInvalidated (now : String) (r : MemoryRecord) : Bool := r.validTo.any fun validTo => env.invalidatedAt validTo now

def alreadySuperseded (old new : MemoryRecord) (now : String) : Bool :=
  old.supersededById = some new.id && new.supersedesId = some old.id && old.isDeleted && isActive new && !isInvalidated env now new

def isStale (now : String) (r : MemoryRecord) : Bool := r.isDeleted || r.supersededById.isSome || isInvalidated env now r

def Database.inheritKey (db : Database) (old new : MemoryRecord) (now : String) : Option Database :=
  if truthy old.key && old.key ≠ new.key then
    if db.records.any fun r => r.id = new.id && keyClash db.records { r with key := old.key } then none
    else some { db with
      records := updateWhere (fun r => r.id = new.id) (fun r => { r with key := old.key, updatedAt := now }) db.records
      fts := updateWhere (fun row => row.id = new.id) (fun row => { row with key := old.key }) db.fts }
  else some db

def Database.supersedeRows (db : Database) (old new : MemoryRecord) (reason now : String) : Option Database :=
  (applySupersession db old.id new.id reason (if new.createdAt = "" then now else new.createdAt) now).bind fun db =>
    db.inheritKey old new now

def Database.supersedeByContradiction (db : Database) (oldId newId reason : String) (expectedScope : Option String)
    (now : String) : Outcome :=
  if oldId = newId then (.error (.store .sameRecord), db)
  else
    match db.get oldId, db.get newId with
    | none, _ => (.error (.store (.notFound oldId)), db)
    | _, none => (.error (.store (.notFound newId)), db)
    | some old, some new =>
      if !env.validScope old.scope || !env.validScope new.scope then (.error .invalidModel, db)
      else if expectedScope.any fun scope => old.scope ≠ scope || new.scope ≠ scope then (.error .staleRecords, db)
      else if expectedScope.isSome && alreadySuperseded env old new now then (.ok (.record (createRecordFromRow new)), db)
      else if expectedScope.isSome && (isStale env now old || isStale env now new) then (.error .staleRecords, db)
      else
        match db.supersedeRows old new reason now with
        | none => (.error (.store .integrity), db)
        | some after =>
          match after.get newId with
          | none => (.error (.store (.notFound newId)), db)
          | some row =>
            let r := createRecordFromRow row
            if env.refsActive r.id r.evidenceRefs then (.ok (.record r), after)
            else (.error (.store .artifactNotFound), after)

def Database.candidatePut (db : Database) (c : MemoryCandidate) (now : String) : Outcome :=
  if regresses db.candidates c then (.error (.store (.terminalStatus c.candidateId)), db)
  else
    let after := { db with candidates := upsertRow MemoryCandidate.candidateId (storedCandidate c now) db.candidates }
    if env.refsActive c.candidateId c.evidenceRefs then (.ok (.id c.candidateId), after)
    else (.error (.store .artifactNotFound), after)

structure CandidatePatch where
  sessionId : Option String := none
  proposedScope : Option String := none
  recordType : Option String := none
  key : Option String := none
  title : Option String := none
  content : Option Json := none
  tags : Option (List String) := none
  entities : Option (List String) := none
  source : Option String := none
  confidence : Option ℚ := none
  status : Option String := none
  review : Option (Option Json) := none
  metadata : Option Metadata := none
  updatedAt : Option String := none
  deriving DecidableEq

def patchCandidate (c : MemoryCandidate) (patch : CandidatePatch) (now : String) : MemoryCandidate :=
  { c with
    sessionId := patch.sessionId.getD c.sessionId
    proposedScope := patch.proposedScope.getD c.proposedScope
    recordType := patch.recordType.getD c.recordType
    key := patch.key.or c.key
    title := patch.title.or c.title
    content := patch.content.getD c.content
    tags := patch.tags.getD c.tags
    entities := patch.entities.getD c.entities
    source := patch.source.getD c.source
    confidence := patch.confidence.getD c.confidence
    status := patch.status.getD c.status
    review := patch.review.getD c.review
    metadata := patch.metadata.getD c.metadata
    updatedAt := patch.updatedAt.getD now }

def Database.candidateUpdate (db : Database) (candidateId : String) (patch : CandidatePatch) (now : String) : Outcome :=
  match db.candidateGet candidateId with
  | none => (.error (.candidateNotFound candidateId), db)
  | some current =>
    let updated := patchCandidate current patch now
    if !env.validScope updated.proposedScope then (.error .invalidModel, db)
    else if isTerminal current && !isTerminal updated then (.error (.store (.terminalStatus candidateId)), db)
    else (.ok (.candidate updated),
      { db with candidates := updateWhere (fun c => c.candidateId = candidateId) (fun _ => updated) db.candidates })

def promotedRecord (c : MemoryCandidate) (targetScope : String) (existing : Option MemoryRecord) (call : Call) : MemoryRecord :=
  { id := call.newId
    scope := targetScope
    recordType := c.recordType
    key := c.key
    title := c.title
    content := c.content
    tags := c.tags
    entities := c.entities
    source := c.source
    confidence := c.confidence
    evidenceRefs := c.evidenceRefs
    eventTime := some call.now
    createdAt := call.now
    updatedAt := call.now
    supersedesId := existing.map (·.id)
    isDeleted := existing.isSome }

/-- `_sqlite_find_target_key_collision`. -/
def findTargetKeyCollision (rows : List MemoryRecord) (c : MemoryCandidate) (targetScope : String) : Option MemoryRecord :=
  if truthy c.key then findCurrentKeyedRecord rows targetScope c.recordType (c.key.getD "") else none

def Database.insertPromotedCandidate (db : Database) (c : MemoryCandidate) (targetScope : String) (call : Call) :
    Option Database :=
  let existing := findTargetKeyCollision db.records c targetScope
  insertReplacing db (promotedRecord c targetScope existing call) existing call.now

def Database.setCandidate (db : Database) (candidateId : String) (f : MemoryCandidate → MemoryCandidate) : Database :=
  { db with candidates := updateWhere (fun c => c.candidateId = candidateId) f db.candidates }

def Database.promoteCandidate (db : Database) (candidateId targetScope : String) (call : Call) : Outcome :=
  match db.candidateGet candidateId with
  | none => (.error (.candidateNotFound candidateId), db)
  | some c =>
    if c.status ≠ "approved" then (.error (.promotionDenied candidateId), db)
    else
      match db.insertPromotedCandidate c targetScope call with
      | none => (.error (.store .integrity), db)
      | some after =>
        (after.setCandidate candidateId fun c => { c with status := "promoted", updatedAt := call.now }).reload env call.newId

def consolidationStatus (action : String) : Option String :=
  if action = "promote" then some "promoted"
  else if action = "discard" then some "rejected"
  else if action = "defer" then some "proposed"
  else none

def Database.applyConsolidationDecision (db : Database) (candidate : MemoryCandidate) (action targetScope : String)
    (review : Option Json) (metadata : Metadata) (call : Call) : Outcome :=
  match db.candidateGet candidate.candidateId with
  | none => (.error (.candidateNotFound candidate.candidateId), db)
  | some current =>
    if current ≠ candidate then (.error (.candidateChanged candidate.candidateId), db)
    else if current.status ≠ "proposed" || current.proposedScope ≠ targetScope then
      (.error (.outsideScope candidate.candidateId), db)
    else
      match consolidationStatus action with
      | none => (.error (.unsupportedAction action), db)
      | some status =>
        let decide := fun db : Database => db.setCandidate candidate.candidateId fun c =>
          { c with status, review, metadata, updatedAt := call.now }
        if action = "promote" then
          match db.insertPromotedCandidate current targetScope call with
          | none => (.error (.store .integrity), db)
          | some after => (decide after).reload env call.newId
        else
          match (decide db).candidateGet candidate.candidateId with
          | none => (.error (.candidateNotFound candidate.candidateId), decide db)
          | some refreshed => (.ok (.candidate refreshed), decide db)

def Database.putRelation (db : Database) (r : MemoryRelation) : Outcome :=
  match db.toStore.putRelation r with
  | (_, some e) => (.error (.store e), db)
  | (s, none) => (.ok (.id r.relationId), { db with toStore := s })

/-- `soft_delete_sqlite_record`. -/
def Database.softDelete (db : Database) (recordId now reason : String) : Database :=
  { db with
    records := updateWhere (fun r => r.id = recordId) (fun r => { r with
      isDeleted := true
      updatedAt := now
      deletedAt := some now
      deletedReason := some reason }) db.records
    fts := deleteWhere (fun row => row.id = recordId) db.fts }

/-- `ORDER BY confidence ASC, updated_at ASC, created_at ASC`. -/
def evictedFirst (r s : MemoryRecord) : Bool :=
  r.confidence < s.confidence || (r.confidence = s.confidence &&
    (r.updatedAt < s.updatedAt || (r.updatedAt = s.updatedAt && r.createdAt ≤ s.createdAt)))

def excessIds (rows : List MemoryRecord) (scope : String) (maxRecords : ℕ) (exempt : List String) : List String :=
  let live := (rows.filter fun r => !r.isDeleted && r.scope = scope).mergeSort evictedFirst
  ((live.filter fun r => r.recordType ∉ exempt).take (live.length - maxRecords)).map (·.id)

def Database.enforceScopeCapacity (db : Database) (maxRecords : ℕ) (exempt : List String) (now : String) : Outcome :=
  let scopes := ((db.records.filter fun r => !r.isDeleted).map (·.scope)).dedup
  (.ok .done, scopes.foldl (fun db scope =>
    (excessIds db.records scope maxRecords exempt).foldl (fun db id => db.softDelete id now "scope_capacity") db) db)

/-- The step of `_decay_sqlite_records` for a row: its new confidence, or nothing for a row that
is exempt or recent. -/
def decayRow (decayed : MemoryRecord → Option ℚ) (minConfidence : ℚ) (now : String) (db : Database) (r : MemoryRecord) :
    Database :=
  match decayed r with
  | none => db
  | some confidence =>
    let after := { db with
      records := updateWhere (fun row => row.id = r.id) (fun row => { row with confidence, updatedAt := now }) db.records }
    if confidence < minConfidence then after.softDelete r.id now "confidence_below_threshold" else after

def Database.applyConfidenceDecay (db : Database) (decayed : MemoryRecord → Option ℚ) (minConfidence : ℚ) (now : String) :
    Outcome :=
  (.ok .done, (db.records.filter fun r => !r.isDeleted).foldl (decayRow decayed minConfidence now) db)

def isProtected (rows : List MemoryRecord) (id : String) : Bool :=
  rows.any fun r => !r.isDeleted && (r.supersedesId = some id || r.supersededById = some id)

def purgeableIds (rows : List MemoryRecord) (now : String) (batchSize : ℕ) : List String :=
  let dead := (rows.filter fun r => r.isDeleted && !isProtected rows r.id).take batchSize
  let expired := (rows.filter fun r => (r.expiresAt.any fun t => t < now) && !r.isDeleted && !isProtected rows r.id).take batchSize
  ((dead ++ expired).map (·.id)).dedup

def unlink (ids : List String) (r : MemoryRecord) : MemoryRecord :=
  if r.isDeleted || r.id ∈ ids then
    { r with
      supersedesId := r.supersedesId.filter fun id => id ∉ ids
      supersededById := r.supersededById.filter fun id => id ∉ ids }
  else r

def Database.purgeSoftDeleted (db : Database) (now : String) (batchSize : ℕ) : Outcome :=
  let ids := purgeableIds db.records now batchSize
  (.ok .done,
    { db with
      records := deleteWhere (fun r => r.id ∈ ids) (db.records.map (unlink ids))
      candidates := deleteWhere isTerminal db.candidates
      relations := deleteWhere (fun r => r.sourceRecordId ∈ ids || r.targetRecordId ∈ ids) db.relations
      tierTransitions := deleteWhere (fun t => t.recordId ∈ ids) db.tierTransitions
      fts := deleteWhere (fun row => row.id ∈ ids) db.fts
      entities := deleteWhere (fun row => row.recordId ∈ ids) db.entities })

inductive Op where
  | put (record : MemoryRecord)
  | upsert (scope recordType key : String) (patch : RecordPatch) (call : Call)
  | delete (recordId : String) (reason deletedAt : Option String) (now : String)
  | tombstone (scope recordType key now : String)
  | invalidate (recordId validTo now : String)
  /-- `supersede_by_contradiction`; a consolidation gives the scope that it expects. -/
  | supersede (oldId newId reason : String) (expectedScope : Option String) (now : String)
  | candidatePut (candidate : MemoryCandidate) (now : String)
  | candidateUpdate (candidateId : String) (patch : CandidatePatch) (now : String)
  | promote (candidateId targetScope : String) (call : Call)
  | consolidate (candidate : MemoryCandidate) (action targetScope : String) (review : Option Json) (metadata : Metadata) (call : Call)
  | putRelation (relation : MemoryRelation)
  | evict (maxRecords : ℕ) (exempt : List String) (now : String)
  | decay (decayed : MemoryRecord → Option ℚ) (minConfidence : ℚ) (now : String)
  | purge (now : String) (batchSize : ℕ)

def perform (db : Database) : Op → Outcome
  | .put record => db.put env record
  | .upsert scope recordType key patch call => db.upsert env scope recordType key patch call
  | .delete recordId reason deletedAt now => db.delete recordId reason deletedAt now
  | .tombstone scope recordType key now => db.tombstone scope recordType key now
  | .invalidate recordId validTo now => db.invalidate env recordId validTo now
  | .supersede oldId newId reason expectedScope now => db.supersedeByContradiction env oldId newId reason expectedScope now
  | .candidatePut candidate now => db.candidatePut env candidate now
  | .candidateUpdate candidateId patch now => db.candidateUpdate env candidateId patch now
  | .promote candidateId targetScope call => db.promoteCandidate env candidateId targetScope call
  | .consolidate candidate action targetScope review metadata call =>
    db.applyConsolidationDecision env candidate action targetScope review metadata call
  | .putRelation relation => db.putRelation relation
  | .evict maxRecords exempt now => db.enforceScopeCapacity maxRecords exempt now
  | .decay decayed minConfidence now => db.applyConfidenceDecay decayed minConfidence now
  | .purge now batchSize => db.purgeSoftDeleted now batchSize

def step (db : Database) (op : Op) : Database := (perform env db op).2

end Operations

def permissive : Environment := ⟨fun _ => .null, fun _ => true, fun _ _ => true, fun _ _ => false, id, List.Perm.refl, fun _ _ => true⟩

def note (id : String) (key : Option String := none) : MemoryRecord :=
  { id, scope := "agent:a", recordType := "fact", key, content := .str id, createdAt := "t0", updatedAt := "t0" }

end OpenMinion.MemoryDatabase
