import OpenMinion.A2ACalls

/-!
# Agent-to-agent jobs

The job calls and the worker of a job, in any number of runtime processes over one state store. The lock of a runtime
keeps apart the store steps of its own process alone, and a handler runs without it.
-/
namespace OpenMinion.A2AJobs
open A2ACalls A2AStateStore InterleavedThreads IsoTimestamps JsonValues TransitionRuns

abbrev Job := JobRecord DateTime

/-- What the runtime writes to a job: `_mark_job_running`, `_mark_job_success`,
`_mark_job_failed`, `job_cancel` and `_recover_stale_job`. -/
inductive Change where
  | running
  | success (resultInline : Option Dict) (resultRef : Option String)
  | failed (message : String)
  | canceled
  | stale
  deriving DecidableEq

namespace Change

def state : Change → String
  | .running => stateRunning
  | .success _ _ => stateSuccess
  | .failed _ | .stale => stateFailed
  | .canceled => stateCanceled

def error : Change → Option Dict
  | .running | .success _ _ => none
  | .failed message => some (A2AError.toDict ⟨"JOB_FAILED", message, []⟩)
  | .canceled => some (A2AError.toDict ⟨"CANCELED", "Job canceled", []⟩)
  | .stale =>
    some (A2AError.toDict ⟨"STALE_JOB", "Job marked failed during recovery due to stale heartbeat", []⟩)

/-- `_job_patch`. -/
def patch (stamped : DateTime) : Change → JobPatch DateTime
  | .running =>
    { heartbeatAt := some stamped, updatedAt := some stamped
      state := some stateRunning, currentStep := some "executing", progress := some (1 / 10) }
  | .success resultInline resultRef =>
    { heartbeatAt := some stamped, updatedAt := some stamped
      state := some stateSuccess, currentStep := some "done", progress := some 1
      resultInline := some resultInline, resultRef := some resultRef, error := some none }
  | .failed message =>
    { heartbeatAt := some stamped, updatedAt := some stamped
      state := some stateFailed, currentStep := some "failed", error := some (Change.failed message).error }
  | .canceled =>
    { heartbeatAt := some stamped, updatedAt := some stamped
      state := some stateCanceled, currentStep := some "canceled", error := some Change.canceled.error }
  | .stale =>
    { heartbeatAt := some stamped, updatedAt := some stamped
      state := some stateFailed, currentStep := some "recovery_failed", error := some Change.stale.error }

def receipt : Change → Option Receipt
  | .running => none
  | .success resultInline resultRef => some { status := statusSuccess, resultInline, resultRef }
  | .failed message => some { status := statusFailed, error := (Change.failed message).error }
  | .canceled => some { status := statusCanceled, error := Change.canceled.error }
  | .stale => some { status := statusFailed, error := Change.stale.error }

end Change

/-- `job.idempotency_scope or f"job.start:{job.agent_id}:{job.method}"`, and the key. -/
def recordSlot (job : Job) : String × String :=
  (if job.idempotencyScope = "" then "job.start:" ++ job.agentId ++ ":" ++ job.method else job.idempotencyScope,
    job.idempotencyKey)

def isStale (heartbeatAt now : DateTime) (staleAfterSec : ℤ) : Bool :=
  (now.micros : ℤ) - heartbeatAt.micros > max 1 staleAfterSec * 1000000

inductive Phase where
  | queued
  | started
  | executing
  | succeeding (result : Dict)
  | failing (message : String)
  | finished
  deriving DecidableEq

/-- An entry of `_futures` and `_cancel_events`. -/
structure Worker where
  taskId : String
  e : Envelope
  scope : String
  phase : Phase
  canceled : Bool := false

inductive Outcome where
  | started (taskId : String)
  | job (job : Job)
  | recovered (taskIds : List String)
  | a2aError (error : A2AError)
  | storeError (error : StoreError)

inductive After where
  | worker (taskId : String) (phase : Phase)
  | status (job : Job) (cancel : Bool)
  | canceled
  | rows (rest : List Job) (recovered : List String) (now : DateTime)

inductive Place where
  | idle (outcome : Option Outcome)
  | reserved (e : Envelope) (agent : String)
  | created (e : Envelope) (agent : String) (taskId : String)
  | updating (job : Job) (slot : String × String) (change : Change) (after : After)
  | recording (job : Job) (slot : String × String) (receipt : Receipt) (after : After)
  | rereading (job : Job) (cancel : Bool)

structure Process where
  staleAfterSec : ℤ
  place : Place := .idle none
  workers : List Worker := []

namespace Process

/-- `task_id in self._futures`. -/
def hasFuture (p : Process) (taskId : String) : Bool := p.workers.any fun w => w.taskId = taskId

def worker (p : Process) (taskId : String) : Option Worker := p.workers.find? fun w => w.taskId = taskId

def setPhase (p : Process) (taskId : String) (phase : Phase) : Process :=
  { p with workers := p.workers.map fun w => if w.taskId = taskId then { w with phase } else w }

def forgetJob (p : Process) (taskId : String) : Process :=
  { p with workers := p.workers.filter fun w => w.taskId ≠ taskId }

/-- `cancel_event.set()` and `future.cancel()`, which a queued worker obeys at once. -/
def cancelWorker (p : Process) (taskId : String) : Process :=
  { p with
    workers := (p.workers.filter fun w => !(w.taskId = taskId && w.phase = .queued)).map fun w =>
      if w.taskId = taskId then { w with canceled := true } else w }

def become (p : Process) (place : Place) : Process := { p with place }

/-- The condition of `_recover_stale_job`, for a job without a future. -/
def recovers (p : Process) (job : Job) (now : DateTime) : Bool :=
  !p.hasFuture job.taskId && !job.isTerminal && isStale job.heartbeatAt now p.staleAfterSec

/-- The loop of `recover_stale_jobs`, up to the next job to recover. -/
def recoverRows (p : Process) (now : DateTime) : List Job → List String → Place
  | [], recovered => .idle (some (.recovered recovered))
  | job :: rest, recovered =>
    if p.recovers job now then .updating job (recordSlot job) .stale (.rows rest (recovered ++ [job.taskId]) now)
    else p.recoverRows now rest recovered

/-- `job_cancel` after `job_status`; without `cancel`, `job_status` returns. -/
def cancelOrReturn (job : Job) (cancel : Bool) : Place :=
  if cancel && !job.isTerminal then .updating job (recordSlot job) .canceled .canceled
  else .idle (some (.job job))

/-- The first read of `job_status`. -/
def statusRead (p : Process) (taskId : String) (read : Option Job) (cancel : Bool) (now : DateTime) : Place :=
  match read with
  | none => .idle (some (.a2aError ⟨"JOB_NOT_FOUND", "Job '" ++ taskId ++ "' was not found", []⟩))
  | some job =>
    if p.recovers job now then .updating job (recordSlot job) .stale (.status job cancel)
    else cancelOrReturn job cancel

def resume (p : Process) (job : Job) : After → Process
  | .worker taskId phase => (p.setPhase taskId phase).become (.idle none)
  | .status read cancel => p.become (.rereading read cancel)
  | .canceled => p.become (.idle (some (.job job)))
  | .rows rest recovered now => p.become (p.recoverRows now rest recovered)

end Process

/-- A text that `new_uuid` returns. -/
abbrev FreshId := { text : String // text ≠ "" }

/-- What clients and workers do, and the next store step of the operation with the lock. The storage of a result is
the reference of an artifact, nothing for one kept inline, or the error that storing it raises. -/
inductive Move where
  | jobStart (e : Envelope) (agent : String) (now : DateTime)
  | jobStatus (taskId : String) (now : DateTime)
  | jobCancel (taskId : String) (now : DateTime)
  | recoverStaleJobs (now : DateTime)
  | markJobRunning (taskId : String)
  | markJobSuccess (taskId : String) (storage : Except String (Option String))
  | markJobFailed (taskId : String)
  | forgetJob (taskId : String)
  | advance (now : DateTime) (freshId : FreshId)
  | dispatch (taskId : String)
  | handled (taskId : String) (outcome : Except String Dict)

/-- The filter of `recover_stale_jobs`. -/
def activeJobs : JobFilter := { states := some activeJobStates, limit := 5000 }

/-- The new row of `_start_or_replay_job`. -/
def newJob (e : Envelope) (agent taskId : String) (now : DateTime) : Job where
  taskId := taskId
  traceId := e.traceId
  idempotencyKey := e.idempotencyKey
  agentId := agent
  method := e.method
  state := statePending
  currentStep := "queued"
  ownerAgentId := e.fromAgent
  idempotencyScope := idempotencyScope e agent
  createdAt := now
  updatedAt := now
  heartbeatAt := now

abbrev Tables := StateTables DateTime

/-- `job_start` up to the end of its reservation. -/
def jobStart (s : Tables) (p : Process) (e : Envelope) (agent : String) (now : DateTime) : Tables × Process :=
  if e.type ≠ "job.start" then
    (s, p.become (.idle (some (.a2aError ⟨"INVALID_ARGUMENT", "Envelope type must be 'job.start' for job_start()", []⟩))))
  else
    let details : Dict := [("idempotency_key", .str e.idempotencyKey)]
    match reserveIdempotency s.idempotency e.idempotencyKey (idempotencyScope e agent) now with
    | ((false, some existing), rows) =>
      let outcome : Outcome := match existing.taskId with
        | some taskId =>
          if taskId ≠ "" then .started taskId
          else if existing.status = statusSuccess then
            .a2aError ⟨"ALREADY_COMPLETED", "Job already completed for this idempotency key", details⟩
          else .a2aError ⟨"IN_PROGRESS", "Job is already in progress for this idempotency key", details⟩
        | none =>
          if existing.status = statusSuccess then
            .a2aError ⟨"ALREADY_COMPLETED", "Job already completed for this idempotency key", details⟩
          else .a2aError ⟨"IN_PROGRESS", "Job is already in progress for this idempotency key", details⟩
      ({ s with idempotency := rows }, p.become (.idle (some outcome)))
    | (_, rows) => ({ s with idempotency := rows }, p.become (.reserved e agent))

/-- The read of `_mark_job_running`, `_mark_job_success` or `_mark_job_failed`, and the change
of a job that is there and not terminal. -/
def markJob (s : Tables) (p : Process) (w : Worker) (change : Change) (phase : Phase) : Process :=
  match getJob s.jobs w.taskId with
  | none => p.setPhase w.taskId .finished
  | some job =>
    if job.isTerminal then p.setPhase w.taskId .finished
    else p.become (.updating job (w.scope, w.e.idempotencyKey) change (.worker w.taskId phase))

/-- A worker that raises in `_mark_job_success` while its job is not terminal. -/
def markJobRaises (s : Tables) (p : Process) (w : Worker) (message : String) : Process :=
  match getJob s.jobs w.taskId with
  | none => p.setPhase w.taskId .finished
  | some job =>
    if job.isTerminal || w.canceled then p.setPhase w.taskId .finished
    else p.setPhase w.taskId (.failing message)

def advance (s : Tables) (p : Process) (now : DateTime) (freshId : FreshId) : Tables × Process :=
  match p.place with
  | .idle _ => (s, p)
  | .reserved e agent =>
    match createJob s.jobs (newJob e agent freshId now) with
    | (.ok _, jobs) => ({ s with jobs }, p.become (.created e agent freshId))
    | (.error error, jobs) => ({ s with jobs }, p.become (.idle (some (.storeError error))))
  | .created e agent taskId =>
    let rows := (setIdempotencyResult s.idempotency e.idempotencyKey (idempotencyScope e agent)
      { status := statusInProgress } (some taskId) now).2
    let w : Worker := ⟨taskId, e, idempotencyScope e agent, .queued, false⟩
    ({ s with idempotency := rows },
      { p with place := .idle (some (.started taskId)), workers := p.workers ++ [w] })
  | .updating job slot change after =>
    match updateJob s.jobs job.taskId (change.patch now) now with
    | (.error error, jobs) => ({ s with jobs }, p.become (.idle (some (.storeError error))))
    | (.ok updated, jobs) =>
      let p := if change = .canceled then p.cancelWorker job.taskId else p
      let slot := if change = .canceled then recordSlot updated else slot
      match change.receipt with
      | none => ({ s with jobs }, p.resume updated after)
      | some receipt => ({ s with jobs }, p.become (.recording updated slot receipt after))
  | .recording job slot receipt after =>
    let rows := (setIdempotencyResult s.idempotency slot.2 slot.1 receipt (some job.taskId) now).2
    ({ s with idempotency := rows }, p.resume job after)
  | .rereading job cancel =>
    (s, p.become (Process.cancelOrReturn ((getJob s.jobs job.taskId).getD job) cancel))

/-- Operations of clients and marks of workers wait for the lock; a move that is not possible changes nothing. -/
def move (s : Tables) (p : Process) (m : Move) : Tables × Process :=
  match m, p.place with
  | .jobStart e agent now, .idle _ => jobStart s p e agent now
  | .jobStatus taskId now, .idle _ => (s, p.become (p.statusRead taskId (getJob s.jobs taskId) false now))
  | .jobCancel taskId now, .idle _ => (s, p.become (p.statusRead taskId (getJob s.jobs taskId) true now))
  | .recoverStaleJobs now, .idle _ => (s, p.become (p.recoverRows now (listJobs s.jobs activeJobs) []))
  | .markJobRunning taskId, .idle _ =>
    match p.worker taskId with
    | some w => if w.phase = .queued then (s, markJob s p w .running .started) else (s, p)
    | none => (s, p)
  | .markJobSuccess taskId storage, .idle _ =>
    match p.worker taskId with
    | some w =>
      match w.phase, storage with
      | .succeeding result, .ok none => (s, markJob s p w (.success (some result) none) .finished)
      | .succeeding _, .ok (some ref) => (s, markJob s p w (.success none (some ref)) .finished)
      | .succeeding _, .error message => (s, markJobRaises s p w message)
      | _, _ => (s, p)
    | none => (s, p)
  | .markJobFailed taskId, .idle _ =>
    match p.worker taskId with
    | some w =>
      match w.phase with
      | .failing message => (s, markJob s p w (.failed message) .finished)
      | _ => (s, p)
    | none => (s, p)
  | .forgetJob taskId, .idle _ =>
    match p.worker taskId with
    | some w => if w.phase = .finished then (s, p.forgetJob taskId) else (s, p)
    | none => (s, p)
  | .advance now freshId, _ => advance s p now freshId
  | .dispatch taskId, _ =>
    match p.worker taskId with
    | some w =>
      if w.phase = .started then (s, p.setPhase taskId (if w.canceled then .finished else .executing)) else (s, p)
    | none => (s, p)
  | .handled taskId outcome, _ =>
    match p.worker taskId with
    | some w =>
      if w.phase = .executing then
        (s, p.setPhase taskId
          (if w.canceled then .finished
          else match outcome with
            | .ok result => .succeeding result
            | .error message => .failing message))
      else (s, p)
    | none => (s, p)
  | _, _ => (s, p)

variable {Proc : Type} [DecidableEq Proc]

abbrev Runtimes (Proc : Type) := System Proc Tables Process

def step (σ : Runtimes Proc) (action : Proc × Move) : Runtimes Proc :=
  σ.become action.1 (move σ.shared (σ.threads action.1) action.2)

def initial (staleAfterSec : Proc → ℤ) : Runtimes Proc :=
  ⟨⟨[], []⟩, fun p => { staleAfterSec := staleAfterSec p }⟩

def clock (seconds : Fin 3600) : DateTime := ⟨63919965600000000 + seconds * 1000000, afterTen_lt_endOfTime seconds⟩

theorem t1_ne_empty : "t1" ≠ "" := by decide

def reportRequest : Envelope := { type := "job.start", fromAgent := "client", method := "report.build", idempotencyKey := "k1" }

end OpenMinion.A2AJobs
