import OpenMinion.CronSchedules

/-!
# The tables of the cron store

Jobs, runs, scope watermarks and the scheduler control row, with the statements that the
cron operations share. Time columns hold the ISO texts that the SQL compares.
-/
namespace OpenMinion.CronTables
open CronSchedules JsonValues KeyedTables SessionTables

inductive RunState where
  | queued
  | running
  | finished
  | failed
  | cancelled
  | timedOut
  deriving DecidableEq

namespace RunState

def isTerminal : RunState → Bool
  | .queued | .running => false
  | .finished | .failed | .cancelled | .timedOut => true

def isActive (s : RunState) : Bool := !s.isTerminal

end RunState

structure CronJobRow where
  jobId : String
  name : String
  description : Option String
  enabled : Bool
  agentId : Option String
  schedule : Schedule
  payload : Dict
  delivery : Dict
  sessionTarget : String
  wakeMode : String
  deleteAfterRun : Bool
  misfirePolicy : MisfirePolicy
  maxLatenessS : ℤ
  maxConcurrency : ℤ
  concurrencyKey : Option String
  maxAttempts : ℤ
  retryBackoffS : ℤ
  nextDueAt : Option String
  lastRunAt : Option String
  createdAt : String
  updatedAt : String
  deriving DecidableEq

structure CronRunRow where
  runId : String
  jobId : Option String
  state : RunState
  dueAt : String
  availableAt : Option String := none
  startedAt : Option String := none
  finishedAt : Option String := none
  isolatedSessionId : Option String := none
  summary : Option String := none
  artifactRefs : List Json := []
  error : Option Dict := none
  output : Dict := []
  leaseOwner : Option String := none
  leaseExpiresAt : Option String := none
  deliveryTargets : List String := []
  attempts : ℕ := 0
  createdAt : String
  updatedAt : String
  deriving DecidableEq

structure CronScopeRow where
  concurrencyKey : String
  lastSuccessRunId : String
  lastSuccessAt : String
  watermark : Dict
  updatedAt : String
  deriving DecidableEq

structure SchedulerControl where
  paused : Bool
  reason : Option String
  actor : Option String
  updatedAt : String
  deriving DecidableEq

/-- The cron tables; `scheduledTaskJobIds` are the `cron_job_id`s of `scheduled_tasks`, a
table that another component owns. -/
structure CronDb where
  jobs : List CronJobRow := []
  runs : List CronRunRow := []
  scopes : List CronScopeRow := []
  control : Option SchedulerControl := none
  scheduledTaskJobIds : List String := []
  deriving DecidableEq

namespace CronDb

def getJob (db : CronDb) (jobId : String) : Option CronJobRow :=
  lookup CronJobRow.jobId jobId db.jobs

def getRun (db : CronDb) (runId : String) : Option CronRunRow :=
  lookup CronRunRow.runId runId db.runs

def jobOf (db : CronDb) (run : CronRunRow) : Option CronJobRow := run.jobId.bind db.getJob

def updateJobs (db : CronDb) (p : CronJobRow → Bool) (f : CronJobRow → CronJobRow) : CronDb :=
  { db with jobs := updateWhere p f db.jobs }

def updateRuns (db : CronDb) (p : CronRunRow → Bool) (f : CronRunRow → CronRunRow) : CronDb :=
  { db with runs := updateWhere p f db.runs }

def clearJob (run : CronRunRow) : CronRunRow := { run with jobId := none }

/-- `DELETE FROM cron_jobs`; the runs of the job stay, `ON DELETE SET NULL`. -/
def deleteJob (db : CronDb) (jobId : String) : CronDb :=
  { db with
    jobs := deleteWhere (fun j => j.jobId = jobId) db.jobs
    runs := updateWhere (fun r => r.jobId = some jobId) clearJob db.runs }

def sameDue (row r : CronRunRow) : Bool := r.jobId.isSome && r.jobId = row.jobId && r.dueAt = row.dueAt

/-- The primary key of `cron_runs` and its foreign key to `cron_jobs`. -/
def runInsertable (db : CronDb) (row : CronRunRow) : Bool :=
  (db.getRun row.runId).isNone && row.jobId.all fun j => (db.getJob j).isSome

/-- `INSERT INTO cron_runs`. -/
def insertRun (db : CronDb) (row : CronRunRow) : Except StoreError CronDb :=
  if db.runInsertable row && !db.runs.any (sameDue row) then .ok { db with runs := db.runs ++ [row] }
  else .error .integrityError

/-- `INSERT INTO cron_runs .. ON CONFLICT(job_id, due_at) DO NOTHING`, with whether a row was
inserted. -/
def insertRunIfNew (db : CronDb) (row : CronRunRow) : Except StoreError (CronDb × Bool) :=
  if db.runs.any (sameDue row) then .ok (db, false)
  else if db.runInsertable row then .ok ({ db with runs := db.runs ++ [row] }, true)
  else .error .integrityError

def inScope (db : CronDb) (key : String) (run : CronRunRow) : Bool :=
  (db.jobOf run).any fun j => j.concurrencyKey = some key

def activeInScope (db : CronDb) (key : String) : ℕ :=
  db.runs.countP fun r => r.state.isActive && db.inScope key r

def activeOfJob (db : CronDb) (jobId : String) : ℕ :=
  db.runs.countP fun r => r.state.isActive && r.jobId = some jobId

/-- `_scope_has_running_run_locked`. -/
def scopeHasRunningRun (db : CronDb) (key excludingRunId : String) : Bool :=
  db.runs.any fun r => r.state = .running && r.runId ≠ excludingRunId && db.inScope key r

/-- `_scheduler_is_paused_locked`. -/
def paused (db : CronDb) : Bool := db.control.any SchedulerControl.paused

theorem jobOf_of_jobs {db db' : CronDb} (h : db'.jobs = db.jobs) (run : CronRunRow) :
    db'.jobOf run = db.jobOf run := by
  have hget : db'.getJob = db.getJob := by
    funext jobId
    rw [getJob, getJob, h]
  rw [jobOf, jobOf, hget]

theorem getRun_updateRuns {db : CronDb} {p : CronRunRow → Bool} {f : CronRunRow → CronRunRow}
    (hf : ∀ r, (f r).runId = r.runId) (runId : String) :
    (db.updateRuns p f).getRun runId = (db.getRun runId).map fun r => if p r then f r else r :=
  lookup_updateWhere (fun r _ => hf r) runId

end CronDb

end OpenMinion.CronTables
