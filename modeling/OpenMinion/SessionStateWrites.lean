import OpenMinion.SessionEventWrites

/-!
# Working state, summaries and snapshots

The writers of the state and summary stores and the queries that they and the slices
share. `update_summary` is two transactions: the upsert of the summary row, and the event
that records it.
-/
namespace OpenMinion.SessionStateWrites
open IsoTimestamps JsonValues KeyedTables PythonText SessionEventWrites SessionTables

/-- `get_latest_working_state` without an agent. -/
def getLatestWorkingState (db : SessionDb) (sessionId : String) : Option WorkingStateRow :=
  ((db.workingState.filter fun r => r.sessionId = sessionId).insertionSort
    fun a b => b.version ≤ a.version).head?

/-- The latest snapshot: `ORDER BY seq_upto DESC, created_at DESC LIMIT 1`. The index on
`(session_id, seq_upto)` is read backwards, so that of rows that agree in both the last one is first. -/
def latestSnapshot (db : SessionDb) (sessionId : String) : Option SessionSnapshotRow :=
  ((db.sessionSnapshots.reverse.filter fun r => r.sessionId = sessionId).insertionSort
    fun a b => b.seqUpto < a.seqUpto ∨ b.seqUpto = a.seqUpto ∧ b.createdAt ≤ a.createdAt).head?

def stateOf (row : Option WorkingStateRow) : Dict :=
  match row with
  | none => []
  | some row =>
    match row.stateInline, orText row.stateRef none with
    | some inline, _ => inline
    | none, some ref => [("state_ref", .str ref)]
    | none, none => []

def getActiveState (db : SessionDb) (sessionId : String) : Dict :=
  match latestSnapshot db sessionId with
  | some snapshot => snapshot.state
  | none => stateOf (getLatestWorkingState db sessionId)

/-- The texts of `get_summary`, from the summary row or else from the latest snapshot. -/
def summaryTexts (db : SessionDb) (sessionId : String) : Option (String × Option String) :=
  match lookup SessionSummaryRow.sessionId sessionId db.sessionSummaries with
  | some row => some (row.summaryShort, row.summaryLong)
  | none => (latestSnapshot db sessionId).map fun s => (s.summaryShort, s.summaryLong)

/-- `get_summary`; the variants `long` and `auto` prefer the long text. -/
def getSummary (db : SessionDb) (sessionId : String) (long : Bool) : String :=
  match summaryTexts db sessionId with
  | none => ""
  | some (shortText, longText) => if long then (orText longText (some shortText)).getD "" else shortText

/-- SQLite's `LIKE` with a pattern that ends in its only wildcard. -/
def likePrefix (pattern text : String) : Bool :=
  let fold (cs : List Char) : List Char := cs.map Char.toLower
  (fold pattern.toList).isPrefixOf (fold text.toList)

structure OpenTask where
  taskId : String
  title : String
  status : String
  lastSeq : ℕ
  note : Json
  deriving DecidableEq

def openTaskStatus (rt : Runtime) (eventType : String) (payload : Dict) (current : String) : String :=
  let orElse (fallback : String) : String :=
    if (payload.get "status").truthy then rt.pyStr (payload.get "status") else fallback
  match eventType with
  | "task.opened" => orElse "open"
  | "task.updated" => orElse (if current = "" then "open" else current)
  | "job.created" => orElse "queued"
  | "job.started" => orElse "running"
  | "job.completed" => orElse "completed"
  | "job.cancelled" => orElse "cancelled"
  | _ => current

def taskKey (rt : Runtime) (e : SessionEventRow) : Option String :=
  match e.taskId with
  | some id => some id
  | none =>
    match if (e.payload.get "task_id").truthy then e.payload.get "task_id" else e.payload.get "job_id" with
    | .null => none
    | id => some (rt.pyStr id)

/-- One event of the loop of `derive_open_tasks`. -/
def openTaskEvent (rt : Runtime) (byTask : List OpenTask) (e : SessionEventRow) : List OpenTask :=
  match taskKey rt e with
  | none => byTask
  | some key =>
    let payload := e.payload
    let titleOf (fallback : String) : String :=
      if (payload.get "title").truthy then rt.pyStr (payload.get "title") else fallback
    let method := if (payload.get "method").truthy then rt.pyStr (payload.get "method") else key
    let status := if (payload.get "status").truthy then rt.pyStr (payload.get "status") else "open"
    let byTask := if byTask.any fun t => t.taskId = key then byTask
      else byTask ++ [⟨key, titleOf method, status, e.seq, payload.get "note"⟩]
    updateWhere (fun t => t.taskId = key) (fun t =>
      { t with
        title := titleOf t.title
        note := if payload.get "note" = .null then t.note else payload.get "note"
        lastSeq := e.seq
        status := openTaskStatus rt e.eventType payload t.status }) byTask

def closedTaskStatuses : List String := ["done", "completed", "cancelled", "closed", "failed"]

def deriveOpenTasks (rt : Runtime) (db : SessionDb) (sessionId : String) (uptoSeq : Option ℕ) :
    List OpenTask :=
  let rows := (eventsOf db sessionId).filter fun e =>
    uptoSeq.all (fun upto => e.seq ≤ upto) &&
      (likePrefix "task." e.eventType || likePrefix "job." e.eventType)
  ((rows.foldl (openTaskEvent rt) []).filter fun t => rt.lower t.status ∉ closedTaskStatuses).insertionSort
    fun a b => a.lastSeq < b.lastSeq ∨ a.lastSeq = b.lastSeq ∧ a.taskId ≤ b.taskId

def OpenTask.json (t : OpenTask) : Json :=
  .dict [("task_id", .str t.taskId), ("title", .str t.title), ("status", .str t.status), ("note", t.note)]

/-- Arguments of `put_working_state`. -/
structure PutWorkingState where
  sessionId : String
  stateRef : Option String := none
  stateInline : Option Dict := none
  now : DateTime

/-- `COALESCE(MAX(version), 0)`. -/
def maxVersion (db : SessionDb) (sessionId : String) : ℕ :=
  ((db.workingState.filter fun r => r.sessionId = sessionId).map WorkingStateRow.version).max?.getD 0

def putWorkingState (db : SessionDb) (w : PutWorkingState) : Except StoreError (SessionDb × ℕ) :=
  let version := maxVersion db w.sessionId + 1
  if db.hasSession w.sessionId then
    let rows := db.workingState ++ [⟨w.sessionId, version, w.now, w.stateRef, w.stateInline⟩]
    .ok (({ db with workingState := rows }).touchSession w.sessionId w.now, version)
  else .error .integrityError

/-- Arguments of `set_summary_base`. -/
structure SetSummaryBase where
  sessionId : String
  baseRef : String
  now : DateTime

def setSummaryBase (db : SessionDb) (b : SetSummaryBase) : Except StoreError (SessionDb × Unit) :=
  if db.hasSession b.sessionId then
    let rows := upsertRow SummaryBaseRow.sessionId ⟨b.sessionId, b.baseRef, b.now⟩ db.summaries
    .ok (({ db with summaries := rows }).touchSession b.sessionId b.now, ())
  else .error .integrityError

/-- Arguments of `update_summary`, with the id and time of the event it appends. -/
structure UpdateSummary where
  sessionId : String
  summaryShort : String
  summaryLong : Option String := none
  basedOnSeq : ℤ
  now : DateTime
  freshEventId : String
  eventNow : DateTime

/-- The first transaction of `update_summary`. -/
def upsertSummary (db : SessionDb) (u : UpdateSummary) : Except StoreError (SessionDb × Unit) :=
  if db.hasSession u.sessionId then
    let rows := upsertRow SessionSummaryRow.sessionId
      ⟨u.sessionId, u.summaryShort, u.summaryLong, u.now, max 0 u.basedOnSeq⟩ db.sessionSummaries
    .ok (({ db with sessionSummaries := rows }).touchSession u.sessionId u.now, ())
  else .error .integrityError

/-- The event of the second transaction of `update_summary`. -/
def UpdateSummary.event (u : UpdateSummary) : AppendEvent where
  sessionId := u.sessionId
  eventType := some "summary.updated"
  payload := [("summary_short", .str u.summaryShort),
    ("summary_long", u.summaryLong.elim .null .str), ("based_on_seq", .int (max 0 u.basedOnSeq))]
  freshId := u.freshEventId
  now := u.eventNow

/-- Arguments of `create_snapshot`. -/
structure CreateSnapshot where
  sessionId : String
  seqUpto : Option ℤ := none
  snapshotId : String
  now : DateTime

def snapshotBoundary (latestSeq : ℕ) (seqUpto : Option ℤ) : ℕ :=
  match seqUpto with
  | none => latestSeq
  | some seq => (max 0 (min seq latestSeq)).toNat

/-- The row that `create_snapshot` computes from its reads. -/
def CreateSnapshot.row (rt : Runtime) (db : SessionDb) (c : CreateSnapshot) : SessionSnapshotRow :=
  let boundary := snapshotBoundary (latestEventSeq db c.sessionId) c.seqUpto
  { snapshotId := c.snapshotId
    sessionId := c.sessionId
    seqUpto := boundary
    summaryShort := getSummary db c.sessionId false
    summaryLong := some (getSummary db c.sessionId true)
    state := stateOf (getLatestWorkingState db c.sessionId)
    openTasks := .list ((deriveOpenTasks rt db c.sessionId (some boundary)).map OpenTask.json)
    createdAt := c.now }

/-- The insert into `session_snapshots`. -/
def insertSnapshot (db : SessionDb) (row : SessionSnapshotRow) : Except StoreError SessionDb :=
  if db.hasSession row.sessionId &&
      (lookup SessionSnapshotRow.snapshotId row.snapshotId db.sessionSnapshots).isNone then
    .ok { db with sessionSnapshots := db.sessionSnapshots ++ [row] }
  else .error .integrityError

/-- The transaction of `create_snapshot`, for the row computed before it. -/
def storeSnapshot (db : SessionDb) (row : SessionSnapshotRow) : Except StoreError (SessionDb × String) :=
  (insertSnapshot db row).map fun db => (db.touchSession row.sessionId row.createdAt, row.snapshotId)

def createSnapshot (rt : Runtime) (db : SessionDb) (c : CreateSnapshot) :
    Except StoreError (SessionDb × String) :=
  if db.hasSession c.sessionId then storeSnapshot db (c.row rt db)
  else .error (.valueError ("session not found: " ++ c.sessionId))

/-- The description of the task of an event in `update_derived_views`. -/
def taskDescription (payload : Dict) : Json :=
  if (payload.get "description").truthy then payload.get "description" else payload.get "task_id"

/-- One event of the loop of `update_derived_views`. -/
def derivedTaskEvent (openTasks : List Json) (e : SessionEventRow) : List Json :=
  let desc := taskDescription e.payload
  if e.eventType ∈ ["task.created", "task.started"] then
    if desc.truthy && !openTasks.any desc.pyEq then openTasks ++ [desc] else openTasks
  else if e.eventType ∈ ["task.completed", "task.cancelled", "task.failed"] then
    openTasks.eraseP desc.pyEq
  else openTasks

/-- Arguments of `update_derived_views`. -/
structure UpdateDerivedViews where
  sessionId : String
  snapshotId : String
  now : DateTime

/-- The row that `update_derived_views` inserts when the session has events. -/
def UpdateDerivedViews.row (db : SessionDb) (v : UpdateDerivedViews) : Option SessionSnapshotRow :=
  let rows := eventsOf db v.sessionId
  rows.getLast?.map fun last =>
    { snapshotId := v.snapshotId
      sessionId := v.sessionId
      seqUpto := last.seq
      summaryShort := getSummary db v.sessionId false
      summaryLong := none
      state := []
      openTasks := .list (rows.foldl derivedTaskEvent [])
      createdAt := v.now }

/-- The insert of `update_derived_views`; its errors are swallowed. -/
def storeDerivedViews (db : SessionDb) (row : SessionSnapshotRow) : SessionDb :=
  match insertSnapshot db row with
  | .ok db' => db'
  | .error _ => db

def updateDerivedViews (db : SessionDb) (v : UpdateDerivedViews) : SessionDb :=
  match v.row db with
  | some row => storeDerivedViews db row
  | none => db

end OpenMinion.SessionStateWrites
