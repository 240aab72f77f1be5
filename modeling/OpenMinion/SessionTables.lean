import OpenMinion.IsoTimestamps
import OpenMinion.JsonValues
import OpenMinion.KeyedTables
import OpenMinion.PythonText

/-!
# The tables of the session store

The tables that hold rows of a session. JSON columns hold the value their text parses to, timestamp columns the instant
of their text. A transaction is a function on the database; one that raises leaves it.
-/
namespace OpenMinion.SessionTables
open IsoTimestamps JsonValues KeyedTables PythonText

inductive StoreError where
  | valueError (message : String)
  | runtimeError (message : String)
  | overflowError
  /-- A primary key, unique index or foreign key was violated. -/
  | integrityError
  | sessionTurnBusy (sessionId : String) (retryAfterS : ℤ) (activeOwner : String)
      (expiresAt : DateTime)
  | sessionTurnFence (message : String)
  | taskControl (code message taskId : String)
  | sessionRetention (code message : String)
  deriving DecidableEq

/-- `if not condition: raise error`. -/
def require (condition : Bool) (error : StoreError) : Except StoreError Unit :=
  if condition then .ok () else .error error

theorem bind_eq_ok {α β : Type} {x : Except StoreError α} {f : α → Except StoreError β} {b : β} :
    (x >>= f) = .ok b ↔ ∃ a, x = .ok a ∧ f a = .ok b := by
  cases x with
  | error e => simp [bind, Except.bind]
  | ok a => simp [bind, Except.bind]

theorem map_eq_ok {α β : Type} {x : Except StoreError α} {f : α → β} {b : β} :
    x.map f = .ok b ↔ ∃ a, x = .ok a ∧ f a = b := by
  cases x with
  | error e => simp [Except.map]
  | ok a => simp [Except.map]

theorem require_eq_ok {c : Bool} {e : StoreError} {u : Unit} : require c e = .ok u ↔ c = true := by
  cases c <;> simp [require]

structure SessionRow where
  sessionId : String
  createdAt : DateTime
  updatedAt : DateTime
  title : Option String
  status : String
  activeAgentId : Option String
  activeProfileVersion : Option String
  participants : Json
  rootGoal : Option String
  tags : Json
  configSnapshotRef : Option String
  metaJson : Json
  deriving DecidableEq

structure TurnRow where
  turnId : String
  sessionId : String
  ts : DateTime
  role : String
  content : String
  attachments : Json
  metaJson : Json
  deriving DecidableEq

/-- The table `events` of the first schema; nothing writes it any more. -/
structure LegacyEventRow where
  eventId : String
  sessionId : String
  ts : DateTime
  eventType : String
  parentId : Option String
  payload : Json
  deriving DecidableEq

structure SessionEventRow where
  eventId : String
  sessionId : String
  seq : ℕ
  timestamp : DateTime
  eventType : String
  actorType : String
  actorId : Option String
  traceId : Option String
  spanId : Option String
  taskId : Option String
  parentEventId : Option String
  payload : Dict
  refs : Dict
  importance : ℤ
  redaction : String
  deriving DecidableEq

structure WorkingStateRow where
  sessionId : String
  version : ℕ
  ts : DateTime
  stateRef : Option String
  stateInline : Option Dict
  deriving DecidableEq

structure SummaryBaseRow where
  sessionId : String
  baseRef : String
  updatedAt : DateTime
  deriving DecidableEq

structure SummaryDeltaRow where
  sessionId : String
  seq : ℕ
  deltaRef : String
  ts : DateTime
  deriving DecidableEq

structure SessionSnapshotRow where
  snapshotId : String
  sessionId : String
  seqUpto : ℕ
  summaryShort : String
  summaryLong : Option String
  state : Dict
  openTasks : Json
  createdAt : DateTime
  deriving DecidableEq

structure SessionSummaryRow where
  sessionId : String
  summaryShort : String
  summaryLong : Option String
  updatedAt : DateTime
  basedOnSeq : ℤ
  deriving DecidableEq

structure TurnLeaseRow where
  sessionId : String
  owner : String
  requestId : String
  fenceToken : ℤ
  acquiredAt : DateTime
  renewedAt : DateTime
  expiresAt : DateTime
  releasedAt : Option DateTime
  deriving DecidableEq

structure SessionShareRow where
  shareId : String
  sessionId : String
  tokenHash : String
  tokenHint : String
  createdBy : String
  createdAt : DateTime
  expiresAt : DateTime
  revokedAt : Option DateTime
  projectionPolicy : Json
  metaJson : Json
  deriving DecidableEq

structure RetentionHoldRow where
  holdId : String
  sessionId : String
  reason : String
  actorId : String
  createdAt : DateTime
  releasedAt : Option DateTime
  deriving DecidableEq

structure PromptContextRow where
  promptContextId : String
  sessionId : String
  createdAt : DateTime
  closedAt : Option DateTime
  status : String
  seedBundleId : Option String
  checkpointId : Option String
  prefixHash : Option String
  rolloverReason : Option String
  metaJson : Json
  deriving DecidableEq

structure CompressionCheckpointRow where
  checkpointId : String
  sessionId : String
  bundleJson : String
  upToEventId : Option String
  createdAt : DateTime
  reason : Option String
  metaJson : Json
  deriving DecidableEq

structure SeedBundleRow where
  seedId : String
  sessionId : String
  sourceBundleId : String
  sourceCheckpointId : Option String
  sectionsJson : String
  totalTokens : ℤ
  budgetsJson : String
  upToEventId : Option String
  createdAt : DateTime
  metaJson : Json
  deriving DecidableEq

structure RunRecordRow where
  runId : String
  sessionId : String
  invocationId : Option String
  threadId : Option String
  promptContextId : Option String
  runType : String
  status : String
  startedAt : DateTime
  finishedAt : Option DateTime
  inputTokens : Option ℤ
  outputTokens : Option ℤ
  modelId : Option String
  metaJson : Json
  deriving DecidableEq

structure MessageRefRow where
  refId : String
  sessionId : String
  runId : Option String
  eventId : Option String
  role : String
  contentRef : Option String
  contentInline : Option String
  seq : ℕ
  createdAt : DateTime
  metaJson : Json
  deriving DecidableEq

@[ext] structure SessionDb where
  sessions : List SessionRow := []
  turns : List TurnRow := []
  events : List LegacyEventRow := []
  sessionEvents : List SessionEventRow := []
  workingState : List WorkingStateRow := []
  summaries : List SummaryBaseRow := []
  summaryDeltas : List SummaryDeltaRow := []
  sessionSnapshots : List SessionSnapshotRow := []
  sessionSummaries : List SessionSummaryRow := []
  turnLeases : List TurnLeaseRow := []
  sessionShares : List SessionShareRow := []
  retentionHolds : List RetentionHoldRow := []
  promptContexts : List PromptContextRow := []
  compressionCheckpoints : List CompressionCheckpointRow := []
  seedBundles : List SeedBundleRow := []
  runRecords : List RunRecordRow := []
  messageRefs : List MessageRefRow := []
  deriving DecidableEq

namespace SessionDb

/-- The foreign key to `sessions` that every other table has. -/
def hasSession (db : SessionDb) (sessionId : String) : Bool :=
  db.sessions.any fun r => r.sessionId = sessionId

/-- `_touch_session_tx`. -/
def touchSession (db : SessionDb) (sessionId : String) (ts : DateTime) : SessionDb :=
  { db with sessions :=
      updateWhere (fun r => r.sessionId = sessionId) (fun r => { r with updatedAt := ts }) db.sessions }

def getSession (db : SessionDb) (sessionId : String) : Option SessionRow :=
  lookup SessionRow.sessionId sessionId db.sessions

@[simp] theorem hasSession_touchSession (db : SessionDb) (s : String) (ts : DateTime) (sid : String) :
    (db.touchSession s ts).hasSession sid = db.hasSession sid := by
  simp only [hasSession, touchSession, updateWhere, List.any_map, Function.comp_def]
  congr 1
  funext r
  split <;> rfl

end SessionDb

def committed {α : Type} (db : SessionDb) (r : Except StoreError (SessionDb × α)) : SessionDb :=
  match r with
  | .ok (db', _) => db'
  | .error _ => db

/-- Arguments of `create_session`; `freshId` is the `uuid4` drawn when no id is given. -/
structure CreateSession where
  initialAgentId : Option String := none
  profileVersion : Option String := none
  title : Option String := none
  tags : List String := []
  status : String := "active"
  sessionId : Option String := none
  metaJson : Dict := []
  freshId : String
  now : DateTime

namespace CreateSession

def sid (c : CreateSession) : String :=
  if stripOr c.sessionId = "" then c.freshId else stripOr c.sessionId

def row (c : CreateSession) : SessionRow where
  sessionId := c.sid
  createdAt := c.now
  updatedAt := c.now
  title := c.title
  status := c.status
  activeAgentId := c.initialAgentId
  activeProfileVersion := c.profileVersion
  participants := .list []
  rootGoal := none
  tags := .list (c.tags.map .str)
  configSnapshotRef := none
  metaJson := .dict c.metaJson

end CreateSession

/-- The insert of `create_session`. -/
def insertSession (db : SessionDb) (c : CreateSession) : Except StoreError (SessionDb × String) :=
  if db.hasSession c.sid then .error .integrityError
  else .ok ({ db with sessions := db.sessions ++ [c.row] }, c.sid)

end OpenMinion.SessionTables
