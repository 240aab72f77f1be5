import Mathlib.Algebra.Group.Int.Defs
import Mathlib.Data.List.Sort
import OpenMinion.CronTables

/-!
# The operations of the cron store

Each operation is one transaction on the cron tables. The identifiers that `uuid4` draws
and the clock readings are arguments.
-/
namespace OpenMinion.CronStore
open CronSchedules CronTables IsoTimestamps JsonValues KeyedTables PythonText SessionTables

/-- `value or default` for an integer column. -/
def orDefault (value fallback : ℤ) : ℤ := if value = 0 then fallback else value

def requiredArgument (value field : String) : Except StoreError String :=
  if strip value = "" then .error (.valueError (field ++ " is required")) else .ok (strip value)

/-- Arguments of `add_cron_job`, as their normalizers leave them. -/
structure AddCronJob where
  name : String
  schedule : Schedule
  payload : Dict
  description : Option String := none
  enabled : Bool := true
  agentId : Option String := none
  sessionTarget : String := "isolated"
  wakeMode : String := "now"
  delivery : Dict := []
  deleteAfterRun : Option Bool := none
  misfirePolicy : MisfirePolicy := .runOnce
  maxLatenessS : ℤ := 600
  maxConcurrency : ℤ := 1
  concurrencyKey : Option String := none
  maxAttempts : ℤ := 3
  retryBackoffS : ℤ := 30
  jobId : Option String := none
  freshId : String
  now : DateTime

namespace AddCronJob

def jid (a : AddCronJob) : String := if stripOr a.jobId = "" then a.freshId else stripOr a.jobId

def row (a : AddCronJob) (nextDue : Option String) : CronJobRow where
  jobId := a.jid
  name := strip a.name
  description := a.description
  enabled := a.enabled
  agentId := stripOrNone a.agentId
  schedule := a.schedule
  payload := a.payload
  delivery := a.delivery
  sessionTarget := a.sessionTarget
  wakeMode := a.wakeMode
  deleteAfterRun := a.deleteAfterRun.getD a.schedule.isAt
  misfirePolicy := a.misfirePolicy
  maxLatenessS := max 0 a.maxLatenessS
  maxConcurrency := max 1 a.maxConcurrency
  concurrencyKey := stripOrNone a.concurrencyKey
  maxAttempts := max 1 (min a.maxAttempts 10)
  retryBackoffS := max 1 (min a.retryBackoffS 86400)
  nextDueAt := if a.enabled then nextDue else none
  lastRunAt := none
  createdAt := toIsoUtc a.now
  updatedAt := toIsoUtc a.now

end AddCronJob

def addCronJob (env : ScheduleEnv) (db : CronDb) (a : AddCronJob) :
    Except StoreError (CronDb × String) := do
  require (strip a.name ≠ "") (.valueError "cron job name is required")
  let nextDue ← initialNextDue env a.schedule a.now a.jid
  require (db.getJob a.jid).isNone .integrityError
  return ({ db with jobs := db.jobs ++ [a.row nextDue] }, a.jid)

/-- Arguments of `set_cron_job_enabled`. -/
structure SetCronJobEnabled where
  jobId : String
  enabled : Bool
  cancelQueued : Bool := false
  nextDueAtOverride : Option String := none
  now : DateTime

def enabledNextDue (env : ScheduleEnv) (job : CronJobRow) (s : SetCronJobEnabled) :
    Except StoreError (Option String) :=
  match s.enabled, s.nextDueAtOverride with
  | true, some due => .ok (some due)
  | true, none => initialNextDue env job.schedule s.now job.jobId
  | false, _ => .ok none

def cancelledRun (now : String) (r : CronRunRow) : CronRunRow :=
  { r with
    state := .cancelled
    finishedAt := some now
    leaseOwner := none
    leaseExpiresAt := none
    updatedAt := now }

def setCronJobEnabled (env : ScheduleEnv) (db : CronDb) (s : SetCronJobEnabled) :
    Except StoreError (CronDb × Unit) := do
  let jid ← requiredArgument s.jobId "job_id"
  match db.getJob jid with
  | none => .error (.valueError ("cron job not found: " ++ s.jobId))
  | some job =>
    let nextDue ← enabledNextDue env job s
    let now := toIsoUtc s.now
    let db₁ := db.updateJobs (fun j => j.jobId = job.jobId)
      (fun j => { j with enabled := s.enabled, nextDueAt := nextDue, updatedAt := now })
    return (if !s.enabled && s.cancelQueued then
      db₁.updateRuns (fun r => r.jobId = some job.jobId ∧ r.state = .queued) (cancelledRun now)
      else db₁, ())

def deleteCronJob (db : CronDb) (jobId : String) : Except StoreError (CronDb × Unit) := do
  let jid ← requiredArgument jobId "job_id"
  return (db.deleteJob jid, ())

/-- `replace_cron_job_payload` with a normalized payload. -/
def replaceCronJobPayload (db : CronDb) (jobId : String) (payload : Dict) (now : DateTime) :
    Except StoreError (CronDb × Unit) := do
  let jid ← requiredArgument jobId "job_id"
  require (db.getJob jid).isSome (.valueError ("cron job not found: " ++ jid))
  return (db.updateJobs (fun j => j.jobId = jid)
    (fun j => { j with payload := payload, updatedAt := toIsoUtc now }), ())

/-- Arguments of `update_task_cron_job`, with a normalized schedule. -/
structure UpdateTaskCronJob where
  jobId : String
  instruction : String
  schedule : Schedule
  expectedUpdatedAt : String
  now : DateTime

def requireFuture (env : ScheduleEnv) (schedule : Schedule) (now : DateTime) (jid : String) :
    Except StoreError Unit :=
  match schedule with
  | .atTime text => do
    let due ← parseIsoDatetime env text
    require (now < due)
      (.taskControl "task_past_due" "one-time task schedule must be in the future" jid)
  | _ => .ok ()

def isPlainAgentTurn (payload : Dict) : Bool :=
  payload.get "kind" = .str "agentTurn" && !payload.has "_openminion_watch" &&
    !payload.has "_openminion_memory_consolidation"

def updateTaskCronJob (env : ScheduleEnv) (db : CronDb) (u : UpdateTaskCronJob) :
    Except StoreError (CronDb × Unit) := do
  let jid := strip u.jobId
  let message := strip u.instruction
  let expected := strip u.expectedUpdatedAt
  require (jid ≠ "" && message ≠ "" && expected ≠ "")
    (.valueError "job_id, instruction, and expected_updated_at are required")
  requireFuture env u.schedule u.now jid
  match db.getJob jid with
  | none => .error (.valueError ("cron job not found: " ++ jid))
  | some job =>
    require (isPlainAgentTurn job.payload)
      (.taskControl "task_unsupported_kind" "only plain agentTurn tasks can be updated" jid)
    require (db.activeOfJob jid = 0)
      (.taskControl "task_busy" "task has queued or running work" jid)
    let nextDue ← bif job.enabled then initialNextDue env u.schedule u.now jid else .ok none
    require (job.updatedAt = expected)
      (.taskControl "task_revision_conflict" "task revision changed; refresh and retry" jid)
    return (db.updateJobs (fun j => j.jobId = jid ∧ j.updatedAt = expected) (fun j => { j with
      schedule := u.schedule
      payload := Dict.set job.payload "message" (.str message)
      nextDueAt := nextDue
      updatedAt := toIsoUtc u.now }), ())

/-- `set_cron_scheduler_control`; the row is created on first use. -/
def setCronSchedulerControl (db : CronDb) (paused : Bool) (reason : Option String) (actor : String)
    (expectedUpdatedAt : String) (now : DateTime) : Except StoreError (CronDb × Unit) := do
  let current := db.control.getD ⟨false, none, none, toIsoUtc now⟩
  require (current.updatedAt = strip expectedUpdatedAt)
    (.taskControl "scheduler_revision_conflict" "scheduler revision changed; refresh and retry" "")
  return ({ db with control := some ⟨paused, stripOrNone reason, stripOrNone (some actor), toIsoUtc now⟩ }, ())

def retryDelaySeconds (attempts : ℕ) (baseBackoffS : ℤ) : ℤ :=
  min (baseBackoffS * 2 ^ (attempts - 1)) 86400

def requeuedRun (availableAt : String) (error : Dict) (now : String) (r : CronRunRow) : CronRunRow :=
  { r with
    state := .queued
    availableAt := some availableAt
    startedAt := none
    error := some error
    leaseOwner := none
    leaseExpiresAt := none
    updatedAt := now }

def failedRun (error : Dict) (now : String) (r : CronRunRow) : CronRunRow :=
  { r with
    state := .failed
    error := some error
    leaseOwner := none
    leaseExpiresAt := none
    finishedAt := some now
    updatedAt := now }

def isRunning (runId : String) (r : CronRunRow) : Bool := r.runId = runId ∧ r.state = .running

def expiredRuns (db : CronDb) (nowIso : String) (limit : ℤ) : List (CronRunRow × CronJobRow) :=
  let expired := db.runs.filterMap fun r =>
    (db.jobOf r).bind fun j =>
      if r.state = .running ∧ r.leaseExpiresAt.any (· ≤ nowIso) then some (r, j) else none
  (expired.insertionSort fun a b => a.1.leaseExpiresAt.getD "" ≤ b.1.leaseExpiresAt.getD "").take
    (max 1 (min limit 1000)).toNat

structure RecoveredRun where
  runId : String
  jobId : Option String
  state : RunState
  attempts : ℕ
  availableAt : Option String
  error : Dict
  deriving DecidableEq

def recoveryLimit (j : CronJobRow) : ℤ := max 1 (orDefault j.maxAttempts 3)

def recoveryDelay (r : CronRunRow) (j : CronJobRow) : ℤ :=
  retryDelaySeconds r.attempts (max 1 (orDefault j.retryBackoffS 30))

/-- One iteration of the loop of `_recover_expired_cron_runs_locked`. -/
def recoverRun (now : DateTime) (acc : CronDb × List RecoveredRun) (row : CronRunRow × CronJobRow) :
    Except StoreError (CronDb × List RecoveredRun) :=
  let (r, j) := row
  let nowIso := toIsoUtc now
  let limit := recoveryLimit j
  if limit ≤ r.attempts then
    let error : Dict := [("code", .str "cron_lease_expired_max_attempts"),
      ("message", .str "cron run lease expired after the final attempt"),
      ("attempts", .int r.attempts), ("max_attempts", .int limit)]
    .ok (acc.1.updateRuns (isRunning r.runId) (failedRun error nowIso),
      acc.2 ++ [⟨r.runId, r.jobId, .failed, r.attempts, none, error⟩])
  else
    let delay := recoveryDelay r j
    match now.addSeconds delay with
    | none => .error .overflowError
    | some available =>
      let error : Dict := [("code", .str "cron_lease_expired_retry"),
        ("message", .str "cron run lease expired; delayed retry scheduled"),
        ("attempts", .int r.attempts), ("max_attempts", .int limit), ("retry_delay_s", .int delay)]
      .ok (acc.1.updateRuns (isRunning r.runId) (requeuedRun (toIsoUtc available) error nowIso),
        acc.2 ++ [⟨r.runId, r.jobId, .queued, r.attempts, some (toIsoUtc available), error⟩])

/-- `_recover_expired_cron_runs_locked`. -/
def recoverExpiredCronRuns (db : CronDb) (now : DateTime) (limit : ℤ) :
    Except StoreError (CronDb × List RecoveredRun) :=
  (expiredRuns db (toIsoUtc now) limit).foldlM (recoverRun now) (db, [])

def queuedRun (runId jobId dueAt now : String) (leaseOwner leaseExpiresAt : Option String) :
    CronRunRow where
  runId := runId
  jobId := some jobId
  state := .queued
  dueAt := dueAt
  availableAt := some dueAt
  leaseOwner := leaseOwner
  leaseExpiresAt := leaseExpiresAt
  createdAt := now
  updatedAt := now

def missedRun (runId jobId dueAt now : String) : CronRunRow where
  runId := runId
  jobId := some jobId
  state := .failed
  dueAt := dueAt
  finishedAt := some now
  error := some [("code", .str "schedule_missed"),
    ("message", .str "one-time task exceeded its allowed lateness")]
  createdAt := now
  updatedAt := now

def dueJobRows (env : ScheduleEnv) (db : CronDb) (nowIso : String) (now : DateTime) (limit : ℕ) :
    List CronJobRow :=
  let enabled := (db.jobs.filter fun j => j.enabled && j.nextDueAt.isSome).insertionSort
    fun a b => a.nextDueAt.getD "" ≤ b.nextDueAt.getD ""
  let rows := (enabled.filter fun j => j.nextDueAt.getD "" ≤ nowIso).take limit
  if rows.isEmpty then
    (enabled.filter fun j => (env.parseIso (j.nextDueAt.getD "")).any (· ≤ now)).take limit
  else rows

/-- `_auto_pause_legacy_short_interval_job`. -/
def autoPause (db : CronDb) (job : CronJobRow) (now : String) : CronDb :=
  let payload := Dict.set (Dict.set job.payload "_openminion_pause_reason"
    (.str "TASK_SCHEDULE_INTERVAL_TOO_SHORT")) "_openminion_pause_source" (.str "scheduler")
  db.updateJobs (fun j => j.jobId = job.jobId)
    (fun j => { j with enabled := false, nextDueAt := none, payload := payload, updatedAt := now })

/-- The misfire that `_persist_due_decision` records as a failed run. -/
def isMissedOneTime (db : CronDb) (job : CronJobRow) (duePoints : List DateTime)
    (nextDue : Option DateTime) : Bool :=
  job.schedule.isAt && job.misfirePolicy = .skip && duePoints.isEmpty && nextDue.isNone &&
    db.scheduledTaskJobIds.contains job.jobId

def persistDueDecision (db : CronDb) (job : CronJobRow) (duePoints : List DateTime)
    (nextDue : Option DateTime) (now freshId : String) : Except StoreError CronDb :=
  let db₁ := db.updateJobs (fun j => j.jobId = job.jobId)
    (fun j => { j with nextDueAt := nextDue.map toIsoUtc, updatedAt := now })
  if isMissedOneTime db₁ job duePoints nextDue then do
    let dueAt := if job.nextDueAt.getD "" = "" then now else job.nextDueAt.getD ""
    let (db₂, _) ← db₁.insertRunIfNew (missedRun freshId job.jobId dueAt now)
    return db₂.updateJobs (fun j => j.jobId = job.jobId)
      (fun j => { j with enabled := false, nextDueAt := none, updatedAt := now })
  else .ok db₁

def activeCronRunCount (db : CronDb) (jobId coordinationKey : String) : ℕ :=
  if coordinationKey ≠ "" then db.activeInScope coordinationKey else db.activeOfJob jobId

/-- Arguments of `enqueue_due_cron_runs`; `freshIds` are the `uuid4`s of the call, by job,
the first one for a missed run. -/
structure EnqueueDue where
  daemonId : String
  leaseTtlS : ℤ := 60
  maxJobs : ℤ := 50
  freshIds : String → ℕ → String
  now : DateTime

def insertDueRuns (e : EnqueueDue) (owner leaseExpires jobId : String)
    (acc : CronDb × List CronRunRow) (due : DateTime × ℕ) : Except StoreError (CronDb × List CronRunRow) := do
  let row := queuedRun (e.freshIds jobId (due.2 + 1)) jobId (toIsoUtc due.1) (toIsoUtc e.now)
    (some owner) (some leaseExpires)
  let (db, inserted) ← acc.1.insertRunIfNew row
  return (db, if inserted then acc.2 ++ [row] else acc.2)

/-- A recurring interval below `DEFAULT_TASK_MIN_EVERY_MS`. -/
def isShortInterval : Schedule → Bool
  | .every everyMs _ => everyMs < 10000
  | _ => false

/-- One iteration of the job loop of `enqueue_due_cron_runs`. -/
def enqueueJob (env : ScheduleEnv) (e : EnqueueDue) (owner leaseExpires : String)
    (acc : CronDb × List CronRunRow) (job : CronJobRow) : Except StoreError (CronDb × List CronRunRow) :=
  let now := toIsoUtc e.now
  if isShortInterval job.schedule then .ok (autoPause acc.1 job now, acc.2)
  else
    let key := stripOr job.concurrencyKey
    let active := activeCronRunCount acc.1 job.jobId key
    let maxForJob := if key ≠ "" then 1 else (max 1 job.maxConcurrency).toNat
    if maxForJob ≤ active then .ok acc
    else do
      let (selected, nextDue) ← selectDuePoints env job.schedule job.misfirePolicy job.maxLatenessS
        job.jobId job.nextDueAt e.now
      let duePoints := selected.take (maxForJob - active)
      let db ← persistDueDecision acc.1 job duePoints nextDue now (e.freshIds job.jobId 0)
      duePoints.zipIdx.foldlM (insertDueRuns e owner leaseExpires job.jobId) (db, acc.2)

/-- The part of `enqueue_due_cron_runs` after the recovery. -/
def enqueueRecovered (env : ScheduleEnv) (e : EnqueueDue) (owner leaseExpires : String) (db : CronDb) :
    Except StoreError (CronDb × List CronRunRow) :=
  if db.paused then .ok (db, [])
  else
    let rows := dueJobRows env db (toIsoUtc e.now) e.now (max 1 (min e.maxJobs 500)).toNat
    rows.foldlM (enqueueJob env e owner leaseExpires) (db, [])

def enqueueDueCronRuns (env : ScheduleEnv) (db : CronDb) (e : EnqueueDue) :
    Except StoreError (CronDb × List CronRunRow) := do
  let owner ← requiredArgument e.daemonId "daemon_id"
  let safeLimit := max 1 (min e.maxJobs 500)
  let leaseExpires ← orOverflow (e.now.addSeconds (max 1 e.leaseTtlS))
  let (db₁, _) ← recoverExpiredCronRuns db e.now (max 100 (safeLimit * 2))
  enqueueRecovered env e owner (toIsoUtc leaseExpires) db₁

/-- Arguments of `trigger_cron_run`. -/
structure TriggerCronRun where
  jobId : String
  dueAt : Option String := none
  leaseOwner : Option String := none
  leaseTtlS : ℤ := 60
  freshId : String
  now : DateTime

def triggerDue (env : ScheduleEnv) (t : TriggerCronRun) : Except StoreError DateTime :=
  match t.dueAt with
  | some due => if due = "" then .ok t.now else parseIsoDatetime env due
  | none => .ok t.now

def triggerExpiry (t : TriggerCronRun) : Except StoreError (Option String) :=
  if t.leaseOwner.getD "" = "" then .ok none
  else (orOverflow (t.now.addSeconds (max 1 t.leaseTtlS))).map fun expires => some (toIsoUtc expires)

def triggerCronRun (env : ScheduleEnv) (db : CronDb) (t : TriggerCronRun) :
    Except StoreError (CronDb × String) :=
  match db.getJob t.jobId with
  | none => .error (.valueError ("cron job not found: " ++ t.jobId))
  | some job => do
    let due ← triggerDue env t
    let expires ← triggerExpiry t
    let key := stripOr job.concurrencyKey
    require (key = "" || db.activeInScope key = 0)
      (.valueError ("cron coordination scope is busy: " ++ key))
    let db' ← db.insertRun (queuedRun t.freshId job.jobId (toIsoUtc due) (toIsoUtc t.now)
      (stripOrNone t.leaseOwner) expires)
    return (db', t.freshId)

def triggerTaskRunNow (db : CronDb) (jobId freshId : String) (now : DateTime) :
    Except StoreError (CronDb × String) := do
  let jid ← requiredArgument jobId "job_id"
  require (!db.paused) (.taskControl "scheduler_paused" "task scheduler is paused" jid)
  match db.getJob jid with
  | none => .error (.valueError ("cron job not found: " ++ jid))
  | some job =>
    require job.enabled (.taskControl "task_not_active" "task is not active" jid)
    require ((db.activeOfJob jid : ℤ) < job.maxConcurrency)
      (.taskControl "task_busy" "task is already at its active-run limit" jid)
    let db' ← db.insertRun (queuedRun freshId jid (toIsoUtc now) (toIsoUtc now) none none)
    return (db', freshId)

/-- Arguments of `acquire_cron_runs`. -/
structure AcquireRuns where
  daemonId : String
  leaseTtlS : ℤ := 60
  limit : ℤ := 10
  now : DateTime

def acquireCandidates (db : CronDb) (owner nowIso : String) (limit : ℕ) : List CronRunRow :=
  let free := db.runs.filter fun r : CronRunRow =>
    r.state = .queued && (db.jobOf r).any CronJobRow.enabled && r.availableAt.all (· ≤ nowIso) &&
      (r.leaseOwner.all (· = owner) || r.leaseExpiresAt.all (· ≤ nowIso))
  (free.insertionSort fun a b => a.dueAt ≤ b.dueAt).take limit

def promotedRun (owner leaseExpires now : String) (r : CronRunRow) : CronRunRow :=
  { r with
    state := .running
    startedAt := some (r.startedAt.getD now)
    availableAt := none
    leaseOwner := some owner
    leaseExpiresAt := some leaseExpires
    attempts := r.attempts + 1
    updatedAt := now }

def isQueued (runId : String) (r : CronRunRow) : Bool := r.runId = runId ∧ r.state = .queued

def scopeBusy (db : CronDb) (r : CronRunRow) : Bool :=
  let key := stripOr ((db.jobOf r).bind CronJobRow.concurrencyKey)
  key ≠ "" && db.scopeHasRunningRun key r.runId

/-- One iteration of the loop of `acquire_cron_runs`. -/
def acquireRun (owner leaseExpires now : String) (acc : CronDb × List CronRunRow) (row : CronRunRow) :
    CronDb × List CronRunRow :=
  if scopeBusy acc.1 row || !acc.1.runs.any (isQueued row.runId) then acc
  else
    let db := acc.1.updateRuns (isQueued row.runId) (promotedRun owner leaseExpires now)
    (db, acc.2 ++ (db.getRun row.runId).toList)

/-- The part of `acquire_cron_runs` after the recovery. -/
def acquireRecovered (a : AcquireRuns) (owner leaseExpires : String) (db : CronDb) :
    CronDb × List CronRunRow :=
  if db.paused then (db, [])
  else
    let rows := acquireCandidates db owner (toIsoUtc a.now) (max 1 (min a.limit 500)).toNat
    rows.foldl (acquireRun owner leaseExpires (toIsoUtc a.now)) (db, [])

def acquireCronRuns (db : CronDb) (a : AcquireRuns) : Except StoreError (CronDb × List CronRunRow) := do
  let owner ← requiredArgument a.daemonId "daemon_id"
  let safeLimit := max 1 (min a.limit 500)
  let leaseExpires ← orOverflow (a.now.addSeconds (max 1 a.leaseTtlS))
  let (db₁, _) ← recoverExpiredCronRuns db a.now (max 100 (safeLimit * 2))
  return acquireRecovered a owner (toIsoUtc leaseExpires) db₁

structure RunFence where
  owner : String
  attempts : ℤ
  deriving DecidableEq

/-- `daemon_id` and `expected_attempts` have to be given together. -/
def runFence (daemonId : Option String) (expectedAttempts : Option ℤ) :
    Except StoreError (Option RunFence) :=
  match daemonId, expectedAttempts with
  | some daemon, some attempts => .ok (some ⟨strip daemon, attempts⟩)
  | none, none => .ok none
  | _, _ => .error (.valueError "daemon_id and expected_attempts must be provided together")

def RunFence.holds (f : RunFence) (r : CronRunRow) : Bool :=
  r.state = .running && r.leaseOwner = some f.owner && (r.attempts : ℤ) = f.attempts

def fencedRun (db : CronDb) (runId : String) (fence : Option RunFence) : Option CronRunRow :=
  db.runs.find? fun r => r.runId = runId && fence.all fun f => f.holds r

/-- Arguments of `renew_cron_run_lease`. -/
structure RenewRun where
  runId : String
  daemonId : String
  expectedAttempts : ℤ
  leaseTtlS : ℤ := 60
  now : DateTime

def renewCronRunLease (db : CronDb) (n : RenewRun) : Except StoreError (CronDb × Bool) := do
  let rid ← requiredArgument n.runId "run_id"
  let owner ← requiredArgument n.daemonId "daemon_id"
  let leaseExpires ← orOverflow (n.now.addSeconds (max 1 n.leaseTtlS))
  let fence : RunFence := ⟨owner, n.expectedAttempts⟩
  let matching (r : CronRunRow) : Bool := r.runId = rid && fence.holds r
  return (db.updateRuns matching (fun r => { r with
    leaseExpiresAt := some (toIsoUtc leaseExpires), updatedAt := toIsoUtc n.now }), db.runs.any matching)

/-- Arguments of `retry_cron_run`. -/
structure RetryRun where
  runId : String
  error : Dict
  daemonId : Option String := none
  expectedAttempts : Option ℤ := none
  now : DateTime

/-- `d.setdefault(key, value)`. -/
def setDefault (d : Dict) (key : String) (value : Json) : Dict :=
  if d.has key then d else Dict.set d key value

def retryLimit (job : Option CronJobRow) : ℤ := max 1 (orDefault ((job.map CronJobRow.maxAttempts).getD 0) 1)

def retryRun (db : CronDb) (r : CronRunRow) (error : Dict) (now : DateTime) : Except StoreError CronDb :=
  let job := db.jobOf r
  let limit := retryLimit job
  let nowIso := toIsoUtc now
  let same (s : CronRunRow) : Bool :=
    isRunning r.runId s && s.leaseOwner = some (r.leaseOwner.getD "") && s.attempts = r.attempts
  if limit ≤ r.attempts then
    let error := setDefault (setDefault error "attempts" (.int r.attempts)) "max_attempts" (.int limit)
    .ok (db.updateRuns same (failedRun error nowIso))
  else
    let backoff := max 1 (orDefault ((job.map CronJobRow.retryBackoffS).getD 0) 30)
    let delay := retryDelaySeconds r.attempts backoff
    match now.addSeconds delay with
    | none => .error .overflowError
    | some available =>
      let error := Dict.set (Dict.set (Dict.set error "attempts" (.int r.attempts)) "max_attempts"
        (.int limit)) "retry_delay_s" (.int delay)
      .ok (db.updateRuns same (requeuedRun (toIsoUtc available) error nowIso))

def retryCronRun (db : CronDb) (t : RetryRun) : Except StoreError (CronDb × Option CronRunRow) := do
  let rid ← requiredArgument t.runId "run_id"
  let fence ← runFence t.daemonId t.expectedAttempts
  match (fencedRun db rid fence).filter fun r => r.state = .running with
  | none => return (db, none)
  | some r =>
    let db' ← retryRun db r t.error t.now
    return (db', db'.getRun rid)

/-- Arguments of `finish_cron_run`. -/
structure FinishRun where
  runId : String
  state : RunState
  summary : Option String := none
  artifactRefs : List Json := []
  error : Option Dict := none
  output : Dict := []
  isolatedSessionId : Option String := none
  daemonId : Option String := none
  expectedAttempts : Option ℤ := none
  now : DateTime

def finishedRun (f : FinishRun) (r : CronRunRow) : CronRunRow :=
  { r with
    state := f.state
    summary := f.summary
    artifactRefs := f.artifactRefs
    error := f.error
    output := f.output
    isolatedSessionId := stripOrNone f.isolatedSessionId
    leaseOwner := none
    leaseExpiresAt := none
    finishedAt := some (toIsoUtc f.now)
    updatedAt := toIsoUtc f.now }

/-- `_persist_scope_watermark_locked`. -/
def persistScopeWatermark (db : CronDb) (f : FinishRun) (job : CronJobRow) (runId : String) : CronDb :=
  let key := stripOr job.concurrencyKey
  match f.output.get "coordination_watermark" with
  | .dict watermark =>
    if f.state = .finished ∧ key ≠ "" then
      let row : CronScopeRow := ⟨key, runId, toIsoUtc f.now, watermark, toIsoUtc f.now⟩
      let scopes := if db.scopes.any fun s => s.concurrencyKey = key then
          updateWhere (fun s => s.concurrencyKey = key) (fun _ => row) db.scopes
        else db.scopes ++ [row]
      { db with scopes := scopes }
    else db
  | _ => db

/-- `_finalize_one_time_job_locked`. -/
def finalizeOneTimeJob (db : CronDb) (f : FinishRun) (job : CronJobRow) : CronDb :=
  if f.state = .finished ∧ job.schedule.isAt then
    if job.deleteAfterRun then db.deleteJob job.jobId
    else db.updateJobs (fun j => j.jobId = job.jobId)
      (fun j => { j with enabled := false, nextDueAt := none, updatedAt := toIsoUtc f.now })
  else db

def finishJob (db : CronDb) (f : FinishRun) (job : CronJobRow) (runId : String) : CronDb :=
  let now := toIsoUtc f.now
  let db₁ := db.updateJobs (fun j => j.jobId = job.jobId)
    (fun j => { j with lastRunAt := some now, updatedAt := now })
  finalizeOneTimeJob (persistScopeWatermark db₁ f job runId) f job

def finishCronRun (db : CronDb) (f : FinishRun) : Except StoreError (CronDb × Option CronRunRow) := do
  require f.state.isTerminal (.valueError "invalid terminal state")
  let rid ← requiredArgument f.runId "run_id"
  let fence ← runFence f.daemonId f.expectedAttempts
  match fencedRun db rid fence with
  | none => return (db, none)
  | some r =>
    let db₁ := db.updateRuns (fun s => s.runId = rid && fence.all fun g => g.holds s) (finishedRun f)
    let db₂ := match db.jobOf r with
      | some job => finishJob db₁ f job rid
      | none => db₁
    return (db₂, db₂.getRun rid)

/-- Arguments of `mark_cron_delivery_target` and `unmark_cron_delivery_target`. -/
structure DeliveryTarget where
  runId : String
  target : String
  daemonId : Option String := none
  expectedAttempts : Option ℤ := none
  now : DateTime

/-- The update that marking and unmarking share: `change` is `none` when there is nothing to
write. -/
def changeDeliveryTargets (db : CronDb) (d : DeliveryTarget)
    (change : List String → String → Option (List String)) : Except StoreError (CronDb × Bool) := do
  let rid ← requiredArgument d.runId "run_id"
  let target ← requiredArgument d.target "target"
  let fence ← runFence d.daemonId d.expectedAttempts
  match fencedRun db rid fence with
  | none => if fence.isSome then return (db, false) else .error (.valueError ("cron run not found: " ++ rid))
  | some r =>
    match change r.deliveryTargets target with
    | none => return (db, false)
    | some targets => return (db.updateRuns (fun s => s.runId = rid && fence.all fun g => g.holds s)
        (fun s => { s with deliveryTargets := targets, updatedAt := toIsoUtc d.now }), true)

def markCronDeliveryTarget (db : CronDb) (d : DeliveryTarget) : Except StoreError (CronDb × Bool) :=
  changeDeliveryTargets db d fun targets target =>
    if target ∈ targets then none else some (targets ++ [target])

def unmarkCronDeliveryTarget (db : CronDb) (d : DeliveryTarget) : Except StoreError (CronDb × Bool) :=
  changeDeliveryTargets db d fun targets target =>
    if target ∈ targets then some (targets.erase target) else none

def deleteOldCronRuns (db : CronDb) (beforeIso : String) : Except StoreError (CronDb × ℕ) := do
  let cutoff ← requiredArgument beforeIso "before_iso"
  let old (r : CronRunRow) : Bool := r.createdAt < cutoff && r.state.isTerminal
  return ({ db with runs := deleteWhere old db.runs }, db.runs.countP old)

def deleteTerminalCronRuns (db : CronDb) (jobId : String) : Except StoreError (CronDb × ℕ) := do
  let jid ← requiredArgument jobId "job_id"
  let done (r : CronRunRow) : Bool := r.jobId = some jid && r.state.isTerminal
  return ({ db with runs := deleteWhere done db.runs }, db.runs.countP done)

end OpenMinion.CronStore
