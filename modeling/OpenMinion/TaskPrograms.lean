import OpenMinion.TaskRecords
import OpenMinion.ThreadedPrograms

/-!
# The task manager by statements

The operations of the task manager, cut where the code goes to the lifecycle database, in a transaction each, or to the
store of the cron jobs. The environment chooses clock readings, next due times and failures.
-/
namespace OpenMinion.TaskPrograms
open InterleavedThreads IsoTimestamps JsonValues KeyedTables PythonText StatementPrograms TaskRecords

structure CronJob where
  jobId : String
  agentId : Option String
  enabled : Bool
  nextDueAt : Option String
  schedule : Dict
  payload : Dict
  deriving DecidableEq

structure Env where
  now : DateTime
  nextDue : Option String := none
  fails : Bool := false

structure StateChange where
  expected : TaskState
  toState : TaskState
  valid : toState = expected ∨ toState ∈ expected.allowed

inductive Stmt where
  /-- A query of one of the stores, or a reading of the clock. -/
  | look
  | create (record : TaskRecord)
  | transition (record : TaskRecord) (toState : TaskState) (failureReason : Option String)
  /-- The writer has made the metadata from those that it found, before the repository read the record. -/
  | recordScheduledOutcome (record : TaskRecord) (change : StateChange) (found metadata : Dict) (failureReason : Option String)
  | updateMetadata (taskId : String) (found metadata : Dict)
  | mutateMetadata (taskId : String) (mutate : LifecycleDb → Dict → Option Dict)
  | putClaim (claim : ProjectCycleClaim)
  | expireClaim (taskId : String) (expiresAt : DateTime)
  | commitCheckpoint (claim : ProjectCycleClaim) (checkpointId : String) (state : Dict) (committedAt : DateTime)
  | setCronJobEnabled (jobId : String) (enabled : Bool) (nextDueAt : Option String)
  | replaceCronJobPayload (jobId : String) (payload : Dict)
  | deleteCronJob (jobId : String)
  /-- Anything else that happens to the cron jobs. -/
  | cronChange (jobs : List CronJob)

structure MetadataChange where
  taskId : String
  found : Dict
  written : Dict
  deriving DecidableEq

structure CheckpointCommit where
  taskId : String
  checkpointId : String
  expectedCheckpointId : Option String
  deriving DecidableEq

structure Shared where
  db : LifecycleDb
  jobs : List CronJob := []
  changes : List MetadataChange := []
  commits : List CheckpointCommit := []

structure Reply where
  db : LifecycleDb
  jobs : List CronJob
  env : Env
  /-- The statement was not rejected. -/
  done : Bool

namespace Stmt

/-- The lifecycle database after the statement; `none` when the statement is rejected and rolled back. -/
def writeDb (env : Env) (db : LifecycleDb) : Stmt → Option LifecycleDb
  | .create record => db.create record
  | .transition record toState failureReason => some (db.transition record toState failureReason (toIsoUtc env.now))
  | .recordScheduledOutcome record change _ metadata failureReason =>
    some (db.recordScheduledOutcome record change.expected change.toState metadata failureReason (toIsoUtc env.now))
  | .updateMetadata taskId _ metadata => some (db.updateMetadata taskId metadata (toIsoUtc env.now))
  | .mutateMetadata taskId mutate => db.mutateMetadata taskId mutate (toIsoUtc env.now)
  | .putClaim claim => some (db.putClaim claim)
  | .expireClaim taskId expiresAt => some (db.expireClaim taskId expiresAt)
  | .commitCheckpoint claim checkpointId state committedAt => db.commitCheckpoint claim checkpointId state committedAt
  | .look | .setCronJobEnabled .. | .replaceCronJobPayload .. | .deleteCronJob _ | .cronChange _ => some db

def writeJobs (jobs : List CronJob) : Stmt → List CronJob
  | .setCronJobEnabled jobId enabled nextDueAt =>
    updateWhere (fun job => job.jobId = jobId) (fun job => { job with enabled := enabled, nextDueAt := nextDueAt }) jobs
  | .replaceCronJobPayload jobId payload =>
    updateWhere (fun job => job.jobId = jobId) (fun job => { job with payload := payload }) jobs
  | .deleteCronJob jobId => deleteWhere (fun job => job.jobId = jobId) jobs
  | .cronChange jobs => jobs
  | _ => jobs

/-- The metadata that the statement found, as the database has them or as its writer read them before. -/
def changes (db : LifecycleDb) : Stmt → List MetadataChange
  | .create record => [⟨record.taskId, [], record.metadata⟩]
  | .recordScheduledOutcome record change found metadata _ =>
    ((db.get record.taskId).filter (·.state = change.expected)).toList.map fun _ => ⟨record.taskId, found, metadata⟩
  | .updateMetadata taskId found metadata => (db.get taskId).toList.map fun _ => ⟨taskId, found, metadata⟩
  | .mutateMetadata taskId mutate =>
    (db.get taskId).toList.flatMap fun row => (mutate db row.metadata).toList.map (⟨taskId, row.metadata, ·⟩)
  | .commitCheckpoint claim checkpointId _ _ =>
    (db.get claim.taskId).toList.map fun row =>
      ⟨claim.taskId, row.metadata, Dict.set row.metadata "last_checkpoint_id" (.str checkpointId)⟩
  | _ => []

def commits : Stmt → List CheckpointCommit
  | .commitCheckpoint claim checkpointId _ _ => [⟨claim.taskId, checkpointId, claim.expectedCheckpointId⟩]
  | _ => []

end Stmt

def exec (s : Shared) (env : Env) (c : Stmt) : Shared × Reply :=
  match if env.fails then none else c.writeDb env s.db with
  | none => (s, ⟨s.db, s.jobs, env, false⟩)
  | some db =>
    (⟨db, c.writeJobs s.jobs, s.changes ++ c.changes s.db, s.commits ++ c.commits⟩, ⟨s.db, s.jobs, env, true⟩)

theorem exec_db (s : Shared) (env : Env) (c : Stmt) :
    (exec s env c).1.db = (if env.fails then none else c.writeDb env s.db).getD s.db := by
  rw [exec]
  cases (if env.fails then none else c.writeDb env s.db) with
  | none => rfl
  | some db => rfl

inductive ErrorType where
  | key
  | value
  | resumeExpired
  | staleClaim
  | claimUnavailable
  /-- The statement is rejected by the store. -/
  | store
  deriving DecidableEq

inductive Failure where
  | error (type : ErrorType) (message : String)
  /-- `StaleProjectCycleClaim` with a text that shows both. -/
  | unexpectedCheckpoint (expected found : Option String)
  deriving DecidableEq

abbrev TaskM := ExceptT Failure (Program Stmt Reply)

def ask {α : Type} (c : Stmt) (f : Reply → Except Failure α) : TaskM α :=
  ExceptT.mk (Program.perform c fun r => if r.done then f r else .error (.error .store "statement failed"))

def look {α : Type} (f : Reply → α) : TaskM α := ask .look fun r => .ok (f r)

def tell (c : Stmt) : TaskM Unit := ask c fun _ => .ok ()

def raise {α : Type} (type : ErrorType) (message : String) : TaskM α := throw (.error type message)

/-- What the manager uses of Python's `str` and `int`, and of the models of projects. -/
structure TaskLibrary where
  str : Json → String
  /-- `int(value)`; `none` when it raises. -/
  int : Json → Option ℤ
  /-- The `checkpoint_id` of `ProjectCheckpoint.model_validate`; `none` when it raises. -/
  projectCheckpointId : Dict → Option String
  /-- `parse_iso_datetime(text)`; `none` when it raises. -/
  parseIsoDatetime : String → Option DateTime

/-- `str(value or "").strip()`. -/
def TaskLibrary.text (lib : TaskLibrary) (value : Json) : String := strip (lib.str (if value.truthy then value else .str ""))

def asDict : Json → Dict
  | .dict items => items
  | _ => []

def without (d : Dict) (key : String) : Dict := d.filter (·.1 ≠ key)

section Repository

def required (name text : String) : TaskM String :=
  if strip text = "" then raise .value (name ++ " is required") else pure (strip text)

def get (taskId : String) : TaskM (Option TaskRecord) := do
  let normalized ← required "task_id" taskId
  look fun r => r.db.get normalized

def getByCronJobId (cronJobId : String) : TaskM (Option TaskRecord) := do
  let normalized ← required "cron_job_id" cronJobId
  look fun r => r.db.getByCronJobId normalized

def requireTaskRecord (taskId : String) : Option TaskRecord → TaskM TaskRecord
  | some record => pure record
  | none => raise .key ("task not found after write: " ++ taskId)

def getRequired (taskId : String) : TaskM TaskRecord := do
  match ← get taskId with
  | some record => pure record
  | none => raise .key ("task not found: " ++ taskId)

def create (taskId cronJobId : String) (agentId : Option String) (metadata : Dict) : TaskM TaskRecord := do
  let normalizedTaskId ← required "task_id" taskId
  let normalizedJobId ← required "cron_job_id" cronJobId
  let now ← look fun r => toIsoUtc r.env.now
  tell (.create { taskId := normalizedTaskId, cronJobId := normalizedJobId, agentId := agentId.map strip, state := .active,
                  createdAt := now, updatedAt := now, metadata := metadata })
  requireTaskRecord normalizedTaskId (← get normalizedTaskId)

def transition (taskId : String) (toState : TaskState) (failureReason : Option String) : TaskM TaskRecord := do
  let record ← getRequired taskId
  if record.state = toState then pure record
  else if toState ∉ record.state.allowed then
    raise .value ("invalid task state transition: " ++ record.state.value ++ " -> " ++ toState.value)
  else
    tell (.transition record toState failureReason)
    requireTaskRecord record.taskId (← get record.taskId)

def recordScheduledOutcome (taskId : String) (expected toState : TaskState) (found metadata : Dict)
    (failureReason : Option String) : TaskM TaskRecord := do
  let record ← getRequired taskId
  if record.state ≠ expected then pure record
  else if h : toState = expected ∨ toState ∈ expected.allowed then
    tell (.recordScheduledOutcome record ⟨expected, toState, h⟩ found metadata failureReason)
    requireTaskRecord record.taskId (← get record.taskId)
  else raise .value ("invalid task state transition: " ++ expected.value ++ " -> " ++ toState.value)

def updateMetadata (taskId : String) (found metadata : Dict) : TaskM TaskRecord := do
  let record ← getRequired taskId
  tell (.updateMetadata record.taskId found metadata)
  requireTaskRecord record.taskId (← get record.taskId)

def mutateMetadata (taskId : String) (mutate : LifecycleDb → Dict → Option Dict) : TaskM TaskRecord := do
  let normalized ← required "task_id" taskId
  tell (.mutateMetadata normalized mutate)
  requireTaskRecord normalized (← get normalized)

end Repository

section Cron

def getScheduledJob (jobId : String) : TaskM (Option CronJob) := do
  let normalized ← required "job_id" jobId
  look fun r => lookup CronJob.jobId normalized r.jobs

/-- `set_cron_job_enabled`; the next due time of an enabled job is the override, or is computed from the schedule. -/
def setCronJobEnabled (jobId : String) (enabled : Bool) (nextDueAtOverride : Option String) : TaskM Unit := do
  match ← getScheduledJob jobId with
  | none => raise .value ("cron job not found: " ++ jobId)
  | some job =>
    let computed ← look fun r => r.env.nextDue
    tell (.setCronJobEnabled job.jobId enabled (if enabled then nextDueAtOverride.orElse fun _ => computed else none))

def replaceCronJobPayload (jobId : String) (payload : Dict) : TaskM Unit := do
  let normalized ← required "job_id" jobId
  let updated ← ask (.replaceCronJobPayload normalized payload) fun r => .ok (lookup CronJob.jobId normalized r.jobs).isSome
  if updated then pure () else raise .value ("cron job not found: " ++ normalized)

def deleteScheduledJob (jobId : String) : TaskM Unit :=
  if strip jobId = "" then pure ()
  else tryCatch (tell (.deleteCronJob (strip jobId))) fun _ => pure ()

end Cron

section Manager

variable (lib : TaskLibrary)

def ensureTaskRecordForJob (job : CronJob) : TaskM TaskRecord := do
  match ← get job.jobId with
  | some existing => pure existing
  | none => create job.jobId job.jobId (stripOrNone job.agentId) []

def requireScheduledRecord (taskId : String) : TaskM TaskRecord := do
  match ← get taskId with
  | some record => pure record
  | none =>
    match ← getByCronJobId taskId with
    | some record => pure record
    | none =>
      match ← getScheduledJob taskId with
      | some job => ensureTaskRecordForJob job
      | none => raise .key ("task not found: " ++ taskId)

def cleanupLinkedCronJob (taskId : String) : TaskM Unit := do
  match ← get taskId with
  | none => pure ()
  | some record =>
    let linkedCronJobId := lib.text (Dict.get record.metadata "linked_cron_job_id")
    if linkedCronJobId = "" then pure ()
    else
      deleteScheduledJob linkedCronJobId
      let _ ← updateMetadata taskId record.metadata (without record.metadata "linked_cron_job_id")

def transitionTask (taskId : String) (toState : TaskState) (failureReason : Option String) : TaskM TaskRecord := do
  let record ← transition taskId toState failureReason
  if record.state.isTerminal then
    cleanupLinkedCronJob lib record.taskId
    pure ((← get record.taskId).getD record)
  else pure record

def requireJob (taskId cronJobId : String) : TaskM CronJob := do
  match ← getScheduledJob cronJobId with
  | some job => pure job
  | none => raise .key ("task not found: " ++ taskId)

/-- The job is disabled, the task changes its state, the queued runs are cancelled; the job is put back when this
raises. -/
def transitionDisabled (taskId : String) (toState : TaskState) : TaskM TaskRecord := do
  let record ← requireScheduledRecord taskId
  let job ← requireJob taskId record.cronJobId
  setCronJobEnabled record.cronJobId false none
  let changed ← tryCatch (transitionTask lib record.taskId toState none) fun e => do
    setCronJobEnabled record.cronJobId job.enabled job.nextDueAt
    throw e
  setCronJobEnabled record.cronJobId false none
  pure changed

def cancelTask (taskId : String) : TaskM Unit := do
  let _ ← transitionDisabled lib taskId .cancelled

def pauseTask (taskId : String) : TaskM Unit := do
  let record ← transitionDisabled lib taskId .paused
  let _ ← requireJob taskId record.cronJobId

def taskInternalPauseReasonKey : String := "_openminion_pause_reason"

def taskInternalPauseSourceKey : String := "_openminion_pause_source"

def resumeTask (taskId : String) : TaskM Unit := do
  let record ← requireScheduledRecord taskId
  let job ← requireJob taskId record.cronJobId
  if lib.text (Dict.get job.schedule "kind") = "at" then
    let now ← look fun r => r.env.now
    match lib.parseIsoDatetime (lib.str (if (Dict.get job.schedule "at").truthy then Dict.get job.schedule "at" else .str "")) with
    | none => raise .value "datetime value is required"
    | some at_ =>
      if at_ ≤ now then raise .resumeExpired "One-shot task is already expired and cannot be resumed"
  if record.state ≠ .active ∧ record.state ≠ .paused then
    raise .value ("task cannot be resumed from " ++ record.state.value)
  let payload := without (without job.payload taskInternalPauseReasonKey) taskInternalPauseSourceKey
  if payload ≠ job.payload then replaceCronJobPayload record.cronJobId payload
  setCronJobEnabled record.cronJobId true none
  let resumed ← tryCatch (transitionTask lib record.taskId .active none) fun e => do
    setCronJobEnabled record.cronJobId false none
    replaceCronJobPayload record.cronJobId job.payload
    throw e
  let _ ← requireJob taskId resumed.cronJobId

def terminalRunStates : List String := ["finished", "failed", "cancelled", "timed_out"]

def truncated (limit : ℕ) (text : String) : String := String.ofList (text.toList.take limit)

/-- `str(value or default)[:limit]`. -/
def TaskLibrary.bounded (lib : TaskLibrary) (value : Json) (default : String) (limit : ℕ) : String :=
  truncated limit (if value.truthy then lib.str value else default)

def boundedTaskRunError : Json → Option Dict
  | .dict error =>
    let result : Dict := [("code", .str (lib.bounded (Dict.get error "code") "failed" 100)),
      ("message", .str (lib.bounded (Dict.get error "message") "" 500))]
    match Dict.get error "details" with
    | .dict details => some (Dict.set result "details" (.dict (details.take 20)))
    | _ => some result
  | _ => none

/-- `d.update(other)`. -/
def updated (d other : Dict) : Dict := other.foldl (fun d item => Dict.set d item.1 item.2) d

def projectSecurityScanOutcome (metadata : Dict) (output : Json) (runId runState cronJobId : String) : Dict :=
  if Dict.has metadata "security_scan_admission" then
    let scanState := updated (asDict (Dict.get metadata "security_scan"))
      [("status", .str runState), ("completed_run_id", .str runId)]
    let verified := Dict.get (asDict output) "security_scan"
    let scanState := match verified with
      | .dict items =>
        if Dict.get items "job_id" = .str cronJobId ∧ Dict.get items "run_id" = .str runId then
          let attempted := Dict.set scanState "last_attempt" (.dict items)
          if runState = "finished" ∧ Dict.get items "status" = .str "completed" then updated attempted items else attempted
        else scanState
      | _ => scanState
    Dict.set metadata "security_scan" (.dict scanState)
  else metadata

def outcomeMetadata (metadata run : Dict) (runId runState cronJobId : String) : Dict :=
  let summary := lib.bounded (Dict.get run "summary") "" 1000
  let metadata := projectSecurityScanOutcome metadata (Dict.get run "output") runId runState cronJobId
  Dict.set metadata "last_run" (.dict [("run_id", .str runId), ("state", .str runState), ("due_at", Dict.get run "due_at"),
    ("finished_at", Dict.get run "finished_at"), ("summary", if summary = "" then .null else .str summary),
    ("last_error", ((boundedTaskRunError lib (Dict.get run "error")).map Json.dict).getD .null)])

def alreadyRecorded (record : TaskRecord) (runId : String) (terminalTask : Bool) : Bool :=
  match Dict.get record.metadata "last_run" with
  | .dict priorRun => Dict.get priorRun "run_id" = .str runId && (!terminalTask || record.state.isTerminal)
  | _ => false

def failureCode (run : Dict) (runState : String) : String :=
  let code := Dict.get ((boundedTaskRunError lib (Dict.get run "error")).getD []) "code"
  lib.str (if code.truthy then code else .str runState)

/-- `TaskManager.record_scheduled_outcome`. -/
def recordTaskOutcome (cronJobId : String) (run : Dict) : TaskM Unit := do
  match ← getByCronJobId cronJobId with
  | none => pure ()
  | some record =>
    let runState := lib.text (Dict.get run "state")
    if runState ∉ terminalRunStates then return
    if runState = "cancelled" then
      let attempts := Dict.get run "attempts"
      match lib.int (if attempts.truthy then attempts else .int 0) with
      | none => raise .value "invalid attempts"
      | some count => if count = 0 then return
    let job ← getScheduledJob record.cronJobId
    let oneTime := lib.text (Dict.get ((job.map CronJob.schedule).getD []) "kind") = "at"
    let terminalTask := oneTime || (Dict.get (asDict (Dict.get run "output")) "watch_terminal").truthy
    let runId := lib.text (Dict.get run "run_id")
    if alreadyRecorded record runId terminalTask then return
    let metadata := outcomeMetadata lib record.metadata run runId runState cronJobId
    if terminalTask && (job.map CronJob.enabled).getD false then setCronJobEnabled record.cronJobId false none
    if record.state = .cancelled then
      let _ ← recordScheduledOutcome record.taskId .cancelled .cancelled record.metadata metadata none
    else if terminalTask && !record.state.isTerminal then
      if runState = "finished" then
        let _ ← recordScheduledOutcome record.taskId record.state .done record.metadata metadata none
      else
        let _ ← recordScheduledOutcome record.taskId record.state .failed record.metadata metadata
          (some (failureCode lib run runState))
    else
      let _ ← recordScheduledOutcome record.taskId record.state record.state record.metadata metadata none

structure ProjectRun where
  projectRunId : String
  autonomyRunId : String
  taskId : String
  goalId : String
  status : String
  phase : String
  verificationState : String
  taskState : Option TaskState
  deriving DecidableEq

def isOpenProjectWorker (projectRunId excluded : String) (record : TaskRecord) : Bool :=
  let found := Dict.get record.metadata "project_run_id"
  !record.state.isTerminal && record.taskId ≠ excluded && lib.str (if found.truthy then found else .str "") = projectRunId

def findOpenProjectWorker (projectRunId excluded : String) : TaskM (Option TaskRecord) := do
  let normalized ← required "project_run_id" projectRunId
  look fun r => (r.db.list 1000).find? (isOpenProjectWorker lib normalized (strip excluded))

def ProjectRun.fields (run : ProjectRun) : Dict :=
  [("project_run_id", .str run.projectRunId), ("autonomy_run_id", .str run.autonomyRunId), ("goal_id", .str run.goalId),
   ("project_status", .str run.status), ("project_phase", .str run.phase), ("verification_state", .str run.verificationState)]

def linkProjectRunToTask (run : ProjectRun) : TaskM Unit := do
  let record ← getRequired run.taskId
  if record.state.isTerminal ∧ some record.state ≠ run.taskState then
    raise .value "project run task state does not match its lifecycle task"
  match ← findOpenProjectWorker lib run.projectRunId run.taskId with
  | some existing =>
    raise .value ("open project worker already exists: " ++ run.projectRunId ++ " on task " ++ existing.taskId)
  | none =>
    let _ ← updateMetadata run.taskId record.metadata (updated record.metadata run.fields)

def loadLatestProjectCheckpoint (taskId : String) : TaskM (Option String) := do
  let normalized ← required "task_id" taskId
  match ← look fun r => r.db.latestCheckpoint normalized with
  | none => pure none
  | some checkpoint =>
    if Dict.get checkpoint.state "kind" ≠ .str "project_run" then
      raise .value "latest checkpoint is not a project_run checkpoint"
    else match lib.projectCheckpointId checkpoint.state with
      | some checkpointId => pure (some checkpointId)
      | none => raise .value "invalid project checkpoint"

def resumeProjectRunFromLatestCheckpoint (taskId : String) : TaskM Unit := do
  match ← loadLatestProjectCheckpoint lib taskId with
  | none => raise .key ("project checkpoint not found: " ++ taskId)
  | some checkpointId =>
    let record ← getRequired taskId
    let count := Dict.get record.metadata "resume_count"
    match lib.int (if count.truthy then count else .int 0) with
    | none => raise .value "invalid resume_count"
    | some resumed =>
      let _ ← updateMetadata taskId record.metadata (updated record.metadata
        [("resume_count", .int (resumed + 1)), ("last_resume_checkpoint_id", .str checkpointId)])

/-- A caller of `update_task_metadata` passes on what it has made of the metadata of the record. -/
def updateTaskMetadata (taskId : String) (change : Dict → Dict) : TaskM Unit := do
  let record ← getRequired taskId
  let _ ← updateMetadata taskId record.metadata (change record.metadata)

def mutateTaskMetadata (taskId : String) (mutate : LifecycleDb → Dict → Option Dict) : TaskM Unit := do
  let _ ← mutateMetadata taskId mutate

end Manager

section Claims

/-- `expires_at`; adding the seconds may leave the range of the dates. -/
def expiry (at_ : DateTime) (ttlSeconds : ℤ) : TaskM DateTime :=
  match at_.addSeconds ttlSeconds with
  | some expiresAt => pure expiresAt
  | none => raise .value "date value out of range"

def acquireProjectCycleClaim (taskId ownerId : String) (expectedCheckpointId : Option String) (ttlSeconds : ℤ) :
    TaskM ProjectCycleClaim := do
  let taskId ← required "task_id" taskId
  let ownerId ← required "owner_id" ownerId
  let expected := stripOrNone expectedCheckpointId
  if ttlSeconds < 1 then raise .value "ttl_seconds must be greater than zero"
  let acquiredAt ← look fun r => r.env.now
  let expiresAt ← expiry acquiredAt ttlSeconds
  let latest ← look fun r => r.db.latestCheckpointId taskId
  if latest ≠ expected then throw (.unexpectedCheckpoint expected latest)
  match ← look fun r => r.db.claim taskId with
  | none =>
    tell (.putClaim ⟨taskId, ownerId, 1, expected, expiresAt⟩)
    pure ⟨taskId, ownerId, 1, expected, expiresAt⟩
  | some existing =>
    if acquiredAt < existing.expiresAt ∧ existing.ownerId ≠ ownerId then
      raise .claimUnavailable ("project cycle is already claimed: " ++ taskId)
    else if existing.ownerId = ownerId ∧ existing.expectedCheckpointId = expected ∧ acquiredAt < existing.expiresAt then
      pure existing
    else
      tell (.putClaim ⟨taskId, ownerId, existing.fenceToken + 1, expected, expiresAt⟩)
      pure ⟨taskId, ownerId, existing.fenceToken + 1, expected, expiresAt⟩

def ClaimMatches (row claim : ProjectCycleClaim) : Prop :=
  row.ownerId = claim.ownerId ∧ row.fenceToken = claim.fenceToken ∧ row.expectedCheckpointId = claim.expectedCheckpointId

instance (row claim : ProjectCycleClaim) : Decidable (ClaimMatches row claim) := by
  unfold ClaimMatches
  infer_instance

def requireMatchingClaim (claim : ProjectCycleClaim) (at_ : Option DateTime) : TaskM Unit := do
  match ← look fun r => r.db.claim claim.taskId with
  | none => raise .staleClaim "project cycle claim does not exist"
  | some current =>
    if ¬ ClaimMatches current claim then raise .staleClaim "project cycle claim is stale"
    else if ∃ t ∈ at_, current.expiresAt ≤ t then raise .staleClaim "project cycle claim expired"
    else pure ()

def refreshProjectCycleClaim (claim : ProjectCycleClaim) (ttlSeconds : ℤ) : TaskM Unit := do
  if ttlSeconds < 1 then raise .value "ttl_seconds must be greater than zero"
  let refreshedAt ← look fun r => r.env.now
  let expiresAt ← expiry refreshedAt ttlSeconds
  requireMatchingClaim claim (some refreshedAt)
  tell (.expireClaim claim.taskId expiresAt)

def releaseProjectCycleClaim (claim : ProjectCycleClaim) : TaskM Unit := do
  let releasedAt ← look fun r => r.env.now
  requireMatchingClaim claim none
  tell (.expireClaim claim.taskId releasedAt)

def commitProjectCycleCheckpoint (claim : ProjectCycleClaim) (checkpointId : String) (state : Dict) : TaskM Unit := do
  let checkpointId ← required "checkpoint_id" checkpointId
  let committedAt ← look fun r => r.env.now
  requireMatchingClaim claim (some committedAt)
  let latest ← look fun r => r.db.latestCheckpointId claim.taskId
  if latest ≠ claim.expectedCheckpointId then throw (.unexpectedCheckpoint claim.expectedCheckpointId latest)
  tell (.commitCheckpoint claim checkpointId state committedAt)

end Claims

inductive Op where
  | cancelTask (taskId : String)
  | pauseTask (taskId : String)
  | resumeTask (taskId : String)
  | transitionTask (taskId : String) (toState : TaskState) (failureReason : Option String)
  | recordScheduledOutcome (cronJobId : String) (run : Dict)
  | updateTaskMetadata (taskId : String) (change : Dict → Dict)
  | mutateTaskMetadata (taskId : String) (mutate : LifecycleDb → Dict → Option Dict)
  | linkProjectRunToTask (run : ProjectRun)
  | resumeProjectRunFromLatestCheckpoint (taskId : String)
  | acquireProjectCycleClaim (taskId ownerId : String) (expectedCheckpointId : Option String) (ttlSeconds : ℤ)
  | refreshProjectCycleClaim (claim : ProjectCycleClaim) (ttlSeconds : ℤ)
  | releaseProjectCycleClaim (claim : ProjectCycleClaim)
  | commitProjectCycleCheckpoint (claim : ProjectCycleClaim) (checkpointId : String) (state : Dict)
  | cronChange (jobs : List CronJob)

def Op.call (lib : TaskLibrary) : Op → TaskM Unit
  | .cancelTask taskId => TaskPrograms.cancelTask lib taskId
  | .pauseTask taskId => TaskPrograms.pauseTask lib taskId
  | .resumeTask taskId => TaskPrograms.resumeTask lib taskId
  | .transitionTask taskId toState failureReason => do
    let _ ← TaskPrograms.transitionTask lib taskId toState failureReason
  | .recordScheduledOutcome cronJobId run => recordTaskOutcome lib cronJobId run
  | .updateTaskMetadata taskId change => TaskPrograms.updateTaskMetadata taskId change
  | .mutateTaskMetadata taskId mutate => TaskPrograms.mutateTaskMetadata taskId mutate
  | .linkProjectRunToTask run => TaskPrograms.linkProjectRunToTask lib run
  | .resumeProjectRunFromLatestCheckpoint taskId => TaskPrograms.resumeProjectRunFromLatestCheckpoint lib taskId
  | .acquireProjectCycleClaim taskId ownerId expected ttlSeconds => do
    let _ ← TaskPrograms.acquireProjectCycleClaim taskId ownerId expected ttlSeconds
  | .refreshProjectCycleClaim claim ttlSeconds => TaskPrograms.refreshProjectCycleClaim claim ttlSeconds
  | .releaseProjectCycleClaim claim => TaskPrograms.releaseProjectCycleClaim claim
  | .commitProjectCycleCheckpoint claim checkpointId state => TaskPrograms.commitProjectCycleCheckpoint claim checkpointId state
  | .cronChange jobs => tell (.cronChange jobs)

abbrev Prog := Program Stmt Reply (Except Failure Unit)

def threads (lib : TaskLibrary) : Threads Shared Prog Op Env := ThreadedPrograms.machine exec fun op => (op.call lib).run

def initial (Thread : Type) (db : LifecycleDb) (jobs : List CronJob) : System Thread Shared Prog :=
  ⟨⟨db, jobs, [], []⟩, fun _ => .done (.ok ())⟩

def TaskLibrary.plain : TaskLibrary where
  str _ := ""
  int _ := none
  projectCheckpointId _ := none
  parseIsoDatetime _ := none

def activeTask : TaskRecord :=
  { taskId := "task", cronJobId := "task", agentId := none, state := .active, createdAt := "", updatedAt := "", metadata := [] }

def Env.atMicros (micros : ℕ) (h : micros < endOfTime := by decide) : Env := { now := ⟨micros, h⟩ }

end OpenMinion.TaskPrograms
