import OpenMinion.IsoTimestamps
import OpenMinion.JsonValues
import OpenMinion.KeyedTables
import OpenMinion.PythonText
import Mathlib.Data.Prod.Lex
import Mathlib.Order.Defs.LinearOrder

/-!
# Task records

The lifecycle database of the tasks: records, checkpoints and the claims on project cycles. A write is what one
transaction makes of the tables; metadata and states are the dictionaries of their texts.
-/
namespace OpenMinion.TaskRecords
open IsoTimestamps JsonValues KeyedTables PythonText

inductive TaskState where
  | active
  | paused
  | cancelled
  | done
  | failed
  deriving DecidableEq

namespace TaskState

def value : TaskState → String
  | .active => "active"
  | .paused => "paused"
  | .cancelled => "cancelled"
  | .done => "done"
  | .failed => "failed"

/-- `_TERMINAL_TASK_STATES`. -/
def isTerminal : TaskState → Bool
  | .cancelled | .done | .failed => true
  | .active | .paused => false

/-- `_ALLOWED_STATE_TRANSITIONS`. -/
def allowed : TaskState → List TaskState
  | .active => [.paused, .cancelled, .done, .failed]
  | .paused => [.active, .cancelled, .done, .failed]
  | .cancelled | .done | .failed => []

theorem allowed_of_isTerminal {state : TaskState} (h : state.isTerminal = true) : state.allowed = [] := by
  cases state with
  | active | paused => cases h
  | cancelled | done | failed => rfl

theorem mem_allowed_of_open {state toState : TaskState} (h : state.isTerminal = false) (hne : toState ≠ state) : toState ∈ state.allowed := by
  cases state with
  | active | paused => cases toState <;> simp_all [allowed]
  | cancelled | done | failed => cases h

end TaskState

structure TaskRecord where
  taskId : String
  cronJobId : String
  agentId : Option String
  state : TaskState
  createdAt : String
  updatedAt : String
  cancelledAt : Option String := none
  completedAt : Option String := none
  failedAt : Option String := none
  failureReason : Option String := none
  metadata : Dict
  deriving DecidableEq

structure TaskCheckpoint where
  taskId : String
  checkpointId : String
  createdAt : String
  state : Dict
  deriving DecidableEq

structure ProjectCycleClaim where
  taskId : String
  ownerId : String
  fenceToken : ℤ
  expectedCheckpointId : Option String
  expiresAt : DateTime
  deriving DecidableEq

structure LifecycleDb where
  tasks : List TaskRecord := []
  checkpoints : List TaskCheckpoint := []
  claims : List ProjectCycleClaim := []
  deriving DecidableEq

/-- `str(failure_reason or "").strip() or "failed"`. -/
def failedReason (failureReason : Option String) : String :=
  if stripOr failureReason = "" then "failed" else stripOr failureReason

namespace TaskRecord

/-- The row after `transition`, which has read `record`. -/
def transitioned (record : TaskRecord) (toState : TaskState) (failureReason : Option String) (now : String) (row : TaskRecord) :
    TaskRecord where
  taskId := row.taskId
  cronJobId := row.cronJobId
  agentId := row.agentId
  state := toState
  createdAt := row.createdAt
  updatedAt := now
  cancelledAt := if toState = .cancelled ∧ record.cancelledAt = none then some now else record.cancelledAt
  completedAt := if toState = .done ∧ record.completedAt = none then some now else record.completedAt
  failedAt := if toState = .failed then some now else record.failedAt
  failureReason := if toState = .failed then some (failedReason failureReason) else record.failureReason
  metadata := row.metadata

/-- The row after `record_scheduled_outcome`, which has read `record`. -/
def concluded (record : TaskRecord) (toState : TaskState) (metadata : Dict) (failureReason : Option String) (now : String)
    (row : TaskRecord) : TaskRecord where
  taskId := row.taskId
  cronJobId := row.cronJobId
  agentId := row.agentId
  state := toState
  createdAt := row.createdAt
  updatedAt := now
  cancelledAt := row.cancelledAt
  completedAt := if toState = .done ∧ record.completedAt = none then some now else record.completedAt
  failedAt := if toState = .failed then some now else record.failedAt
  failureReason := if toState = .failed then some (failedReason failureReason) else record.failureReason
  metadata := metadata

/-- An open mode task of the project task, as the cascade of `transition` selects it. -/
def isOpenMode (projectTaskId : String) (row : TaskRecord) : Bool :=
  !row.state.isTerminal && Dict.get row.metadata "kind" = .str "mode" &&
    Dict.get row.metadata "project_task_id" = .str projectTaskId && row.cronJobId = row.taskId

def cancelledMode (now : String) (row : TaskRecord) : TaskRecord :=
  { row with state := .cancelled, cancelledAt := some now, updatedAt := now }

def withMetadata (metadata : Dict) (now : String) (row : TaskRecord) : TaskRecord :=
  { row with metadata := metadata, updatedAt := now }

end TaskRecord

namespace TaskCheckpoint

/-- What `ORDER BY created_at, checkpoint_id` compares. -/
def sortKey (c : TaskCheckpoint) : String ×ₗ String := toLex (c.createdAt, c.checkpointId)

/-- `ORDER BY created_at DESC, checkpoint_id DESC LIMIT 1`. -/
def newest (cs : List TaskCheckpoint) : Option TaskCheckpoint :=
  cs.foldl (fun best c => match best with
    | none => some c
    | some d => if d.sortKey < c.sortKey then some c else some d) none

theorem newest_append (cs : List TaskCheckpoint) (c : TaskCheckpoint) :
    newest (cs ++ [c]) = match newest cs with
      | none => some c
      | some d => if d.sortKey < c.sortKey then some c else some d := by
  rw [newest, List.foldl_append]
  rfl

theorem newest_spec (cs : List TaskCheckpoint) :
    match newest cs with
    | none => cs = []
    | some d => d ∈ cs ∧ ∀ c ∈ cs, c.sortKey ≤ d.sortKey := by
  induction cs using List.reverseRecOn with
  | nil => rfl
  | append_singleton cs c ih =>
    rw [newest_append]
    cases hnewest : newest cs with
    | none =>
      rw [hnewest] at ih
      simp [ih]
    | some d =>
      rw [hnewest] at ih
      obtain ⟨hmem, hall⟩ := ih
      by_cases hlt : d.sortKey < c.sortKey
      · simp only [if_pos hlt]
        refine ⟨List.mem_append_right _ (List.mem_singleton_self c), ?_⟩
        intro e he
        rcases List.mem_append.mp he with he | he
        · exact (hall e he).trans hlt.le
        · rw [List.mem_singleton.mp he]
      · simp only [if_neg hlt]
        refine ⟨List.mem_append_left _ hmem, ?_⟩
        intro e he
        rcases List.mem_append.mp he with he | he
        · exact hall e he
        · rw [List.mem_singleton.mp he]
          exact not_lt.mp hlt

end TaskCheckpoint

namespace LifecycleDb

variable (db : LifecycleDb)

def get (taskId : String) : Option TaskRecord := lookup TaskRecord.taskId taskId db.tasks

def getByCronJobId (cronJobId : String) : Option TaskRecord := lookup TaskRecord.cronJobId cronJobId db.tasks

def list (limit : ℕ) : List TaskRecord := (db.tasks.mergeSort fun a b => b.createdAt ≤ a.createdAt).take limit

/-- `INSERT INTO scheduled_tasks`; `none` when a key is taken. -/
def create (record : TaskRecord) : Option LifecycleDb :=
  if db.tasks.any fun row => row.taskId = record.taskId || row.cronJobId = record.cronJobId then none
  else some { db with tasks := db.tasks ++ [record] }

/-- `UPDATE scheduled_tasks SET .. WHERE p`. -/
def updateTasks (p : TaskRecord → Bool) (f : TaskRecord → TaskRecord) : LifecycleDb :=
  { db with tasks := updateWhere p f db.tasks }

/-- The transaction of `transition`. -/
def transition (record : TaskRecord) (toState : TaskState) (failureReason : Option String) (now : String) : LifecycleDb :=
  let written := db.updateTasks (fun row => row.taskId = record.taskId) (record.transitioned toState failureReason now)
  if toState.isTerminal && (Dict.get record.metadata "project_run_id").truthy then
    written.updateTasks (TaskRecord.isOpenMode record.taskId) (TaskRecord.cancelledMode now)
  else written

/-- The transaction of `record_scheduled_outcome`. -/
def recordScheduledOutcome (record : TaskRecord) (expected toState : TaskState) (metadata : Dict) (failureReason : Option String)
    (now : String) : LifecycleDb :=
  db.updateTasks (fun row => row.taskId = record.taskId && row.state = expected)
    (record.concluded toState metadata failureReason now)

/-- The transaction of `update_metadata`. -/
def updateMetadata (taskId : String) (metadata : Dict) (now : String) : LifecycleDb :=
  db.updateTasks (fun row => row.taskId = taskId) (TaskRecord.withMetadata metadata now)

/-- The transaction of `mutate_metadata`; `none` when it is rolled back. -/
def mutateMetadata (taskId : String) (mutate : LifecycleDb → Dict → Option Dict) (now : String) : Option LifecycleDb :=
  (db.get taskId).bind fun row => (mutate db row.metadata).map fun metadata => db.updateMetadata taskId metadata now

/-- `_latest_checkpoint_id_locked`. -/
def latestCheckpoint (taskId : String) : Option TaskCheckpoint :=
  TaskCheckpoint.newest (db.checkpoints.filter (·.taskId = taskId))

def latestCheckpointId (taskId : String) : Option String := (db.latestCheckpoint taskId).map (·.checkpointId)

def claim (taskId : String) : Option ProjectCycleClaim := lookup ProjectCycleClaim.taskId taskId db.claims

/-- The upsert of `acquire_project_cycle_claim`. -/
def putClaim (claim : ProjectCycleClaim) : LifecycleDb :=
  { db with claims := upsertRow ProjectCycleClaim.taskId claim db.claims }

/-- The update of `refresh_project_cycle_claim` and `release_project_cycle_claim`. -/
def expireClaim (taskId : String) (expiresAt : DateTime) : LifecycleDb :=
  { db with claims := updateWhere (fun row => row.taskId = taskId) (fun row => { row with expiresAt := expiresAt }) db.claims }

/-- The transaction of `commit_project_cycle_checkpoint`, from its `INSERT` on; `none` when it is rolled back. -/
def commitCheckpoint (claim : ProjectCycleClaim) (checkpointId : String) (state : Dict) (committedAt : DateTime) :
    Option LifecycleDb :=
  if db.checkpoints.any fun row => row.taskId = claim.taskId && row.checkpointId = checkpointId then none
  else (db.get claim.taskId).map fun row =>
    { db.updateMetadata claim.taskId (Dict.set row.metadata "last_checkpoint_id" (.str checkpointId)) (toIsoUtc committedAt) with
      checkpoints := db.checkpoints ++ [⟨claim.taskId, checkpointId, toIsoUtc committedAt, state⟩] }

variable {db}

theorem get_updateTasks {p : TaskRecord → Bool} {f : TaskRecord → TaskRecord} (hid : ∀ row, p row = true → (f row).taskId = row.taskId)
    (taskId : String) : (db.updateTasks p f).get taskId = (db.get taskId).map fun row => if p row then f row else row :=
  lookup_updateWhere hid taskId

end LifecycleDb

end OpenMinion.TaskRecords
