import OpenMinion.SessionEventWrites
import OpenMinion.TaskPlans

/-!
# The projected task plan

A checkpoint's plan and the active plan of the event log interpret the same signals, each with code of its own. As long
as the checkpoint accepts them, they arrive at the same plan.
-/
namespace OpenMinion.TaskPlanProjections
open AbortableLoops JsonValues PythonText SessionEventWrites SessionTables TaskPlans

structure TaskPlanStepCompleted where
  planId : String
  stepId : String
  outcome : String := ""
  outputSummary : String := ""
  continuePlanAutonomously : Bool := false
  deriving DecidableEq

structure TaskPlanStepBlocked where
  planId : String
  stepId : String
  blockerType : String
  blockerDetails : String := ""
  deriving DecidableEq

structure TaskPlanTerminalSignal where
  planId : String
  reason : String := ""
  deriving DecidableEq

structure TaskPlanStepAssigned where
  planId : String
  stepId : String
  participantId : String
  workerSessionId : String
  continuationPacketId : String

structure TaskPlanStepStarted where
  planId : String
  stepId : String
  workerSessionId : String
  continuationPacketId : String

section
variable (lib : Library) (payload : Dict)

def TaskPlanStepCompleted.validate : Except PlanError TaskPlanStepCompleted := do
  .ok {
    planId := ← requiredText lib payload "plan_id"
    stepId := ← requiredText lib payload "step_id"
    outcome := trimmedNonEmpty lib (payload.get "outcome")
    outputSummary := boundedOutputSummary lib (payload.get "output_summary")
    continuePlanAutonomously := ← fieldOr payload "continue_plan_autonomously" false readBool }

def TaskPlanStepBlocked.validate : Except PlanError TaskPlanStepBlocked := do
  .ok {
    planId := ← requiredText lib payload "plan_id"
    stepId := ← requiredText lib payload "step_id"
    blockerType := ← requiredText lib payload "blocker_type"
    blockerDetails := trimmedNonEmpty lib (payload.get "blocker_details") }

def TaskPlanTerminalSignal.validate : Except PlanError TaskPlanTerminalSignal := do
  .ok {
    planId := ← requiredText lib payload "plan_id"
    reason := trimmedNonEmpty lib (payload.get "reason") }

def TaskPlanStepAssigned.validate : Except PlanError TaskPlanStepAssigned := do
  .ok {
    planId := ← requiredText lib payload "plan_id"
    stepId := ← requiredText lib payload "step_id"
    participantId := ← requiredText lib payload "participant_id"
    workerSessionId := ← requiredText lib payload "worker_session_id"
    continuationPacketId := ← requiredText lib payload "continuation_packet_id" }

def TaskPlanStepStarted.validate : Except PlanError TaskPlanStepStarted := do
  .ok {
    planId := ← requiredText lib payload "plan_id"
    stepId := ← requiredText lib payload "step_id"
    workerSessionId := ← requiredText lib payload "worker_session_id"
    continuationPacketId := ← requiredText lib payload "continuation_packet_id" }

end

/-- The arguments of `apply_task_plan_signals`. -/
structure TaskPlanSignals where
  stepCompleted : Option TaskPlanStepCompleted := none
  stepBlocked : Option TaskPlanStepBlocked := none
  abandoned : Option TaskPlanTerminalSignal := none
  completed : Option TaskPlanTerminalSignal := none

def TaskPlanSignals.planIds (signals : TaskPlanSignals) : List String :=
  (signals.stepCompleted.map TaskPlanStepCompleted.planId).toList ++
    (signals.stepBlocked.map TaskPlanStepBlocked.planId).toList ++
    (signals.abandoned.map TaskPlanTerminalSignal.planId).toList ++
    (signals.completed.map TaskPlanTerminalSignal.planId).toList

def unknownStep (stepId : String) : PlanError := .value ("unknown task plan step: " ++ stepId)

def updateStep (steps : List TaskPlanStep) (stepId : String) (update : TaskPlanStep → TaskPlanStep) :
    Except PlanError (List TaskPlanStep) :=
  if steps.any fun s => s.stepId = stepId then .ok (steps.map fun s => if s.stepId = stepId then update s else s)
  else .error (unknownStep stepId)

def applyTaskPlanSignals (plan : Option TaskPlan) (signals : TaskPlanSignals) : Except PlanError (Option TaskPlan) :=
  if signals.planIds = [] then .ok plan
  else
    match plan with
    | none => .error (.value "task plan progress requires a checkpoint task plan")
    | some plan =>
      if signals.planIds.any fun planId => planId ≠ plan.planId then
        .error (.value "task plan progress must match the checkpoint task plan")
      else do
        let steps ← match signals.stepCompleted with
          | some signal => updateStep plan.steps signal.stepId fun s =>
              { s with status := .completed, outputSummary := signal.outputSummary, blockerType := none, blockerDetails := none }
          | none => .ok plan.steps
        let steps ← match signals.stepBlocked with
          | some signal => updateStep steps signal.stepId fun s =>
              { s with status := .blocked, blockerType := some signal.blockerType, blockerDetails := some signal.blockerDetails }
          | none => .ok steps
        let status := if signals.abandoned.isSome then .abandoned else plan.status
        if signals.completed.isSome then
          if steps.any fun s => s.status ≠ .completed then
            .error (.value "task plan completion requires every step to be completed")
          else .ok (some { plan with steps := steps, status := .completed })
        else .ok (some { plan with steps := steps, status := status })

def applyStepCompleted (plan : TaskPlan) (completed : TaskPlanStepCompleted) : TaskPlan :=
  { plan with steps := plan.steps.map fun s =>
      if s.stepId ≠ completed.stepId then s
      else { s with status := .completed, outputSummary := completed.outputSummary, blockerType := none, blockerDetails := none } }

def applyStepBlocked (plan : TaskPlan) (blocked : TaskPlanStepBlocked) : TaskPlan :=
  { plan with steps := plan.steps.map fun s =>
      if s.stepId ≠ blocked.stepId then s
      else { s with status := .blocked, blockerType := some blocked.blockerType, blockerDetails := some blocked.blockerDetails } }

/-- The step of `apply_task_plan_step_started`. -/
def startStep (started : TaskPlanStepStarted) (s : TaskPlanStep) : Except PlanError TaskPlanStep :=
  if s.stepId ≠ started.stepId then .ok s
  else if s.status ≠ .pending then .error (.value "task plan start requires a pending step")
  else if s.workerSessionId ≠ some started.workerSessionId ∨ s.continuationPacketId ≠ some started.continuationPacketId then
    .error (.value "task plan start must match the assigned worker")
  else .ok { s with status := .inProgress }

def applyTaskPlanStepStarted (plan : TaskPlan) (started : TaskPlanStepStarted) : Except PlanError TaskPlan := do
  let steps ← plan.steps.mapM (startStep started)
  if plan.steps.any fun s => s.stepId = started.stepId then .ok { plan with steps := steps }
  else .error (unknownStep started.stepId)

def applyTaskPlanAssignment (plan : TaskPlan) (assignment : TaskPlanStepAssigned) : Except PlanError TaskPlan :=
  if assignment.planId ≠ plan.planId then .error (.value "task plan assignment must match the active plan")
  else
    match plan.steps.find? fun s => s.stepId = assignment.stepId with
    | none => .error (unknownStep assignment.stepId)
    | some selected =>
      if selected.status ≠ .pending then .error (.value "task plan assignment requires a pending step")
      else
        let completed := (plan.steps.filter fun s => s.status = .completed).map TaskPlanStep.stepId
        if selected.dependsOn.any fun d => d ∉ completed then
          .error (.value "task plan assignment requires completed dependencies")
        else
          .ok { plan with steps := plan.steps.map fun s =>
            if s.stepId = assignment.stepId then
              { s with
                assignedParticipantId := some assignment.participantId
                workerSessionId := some assignment.workerSessionId
                continuationPacketId := some assignment.continuationPacketId }
            else s }

def planPayload (payload : Dict) : Dict :=
  match payload.get "plan" with
  | .dict plan => plan
  | _ => payload

section
variable (lib : Library)

def projectActive (plan : TaskPlan) (e : SessionEventRow) : Except PlanError (Option TaskPlan) :=
  if e.eventType = "task_plan.revised" then do
    let revised ← TaskPlan.validate lib (planPayload e.payload)
    .ok (if revised.status = .active then some revised else none)
  else if e.eventType = "task_plan.assigned" then do
    let assigned ← TaskPlanStepAssigned.validate lib e.payload
    some <$> applyTaskPlanAssignment plan assigned
  else if e.eventType = "task_plan.step_started" then do
    let started ← TaskPlanStepStarted.validate lib e.payload
    if started.planId ≠ plan.planId then .ok (some plan) else some <$> applyTaskPlanStepStarted plan started
  else if e.eventType = "task_plan.step_completed" then do
    let completed ← TaskPlanStepCompleted.validate lib e.payload
    .ok (some (if completed.planId ≠ plan.planId then plan else applyStepCompleted plan completed))
  else if e.eventType = "task_plan.step_blocked" then do
    let blocked ← TaskPlanStepBlocked.validate lib e.payload
    .ok (some (if blocked.planId ≠ plan.planId then plan else applyStepBlocked plan blocked))
  else if e.eventType = "task_plan.abandoned" ∨ e.eventType = "task_plan.completed" then do
    let terminal ← TaskPlanTerminalSignal.validate lib e.payload
    .ok (if terminal.planId = plan.planId then none else some plan)
  else .ok (some plan)

def project (active : Option TaskPlan) (e : SessionEventRow) : Option TaskPlan :=
  if e.eventType = "task_plan.declared" then
    match TaskPlan.validate lib (planPayload e.payload) with
    | .ok plan => some plan
    | .error _ => active
  else
    match active with
    | none => none
    | some plan =>
      match projectActive lib plan e with
      | .ok next => next
      | .error _ => some plan

/-- `event_type LIKE 'task_plan.%'`: an underscore stands for any character. -/
def likeTaskPlan (eventType : String) : Bool :=
  match eventType.toList.map Char.toLower with
  | 't' :: 'a' :: 's' :: 'k' :: _ :: 'p' :: 'l' :: 'a' :: 'n' :: '.' :: _ => true
  | _ => false

/-- The events that `get_active_task_plan` reads. -/
def taskPlanEvents (db : SessionDb) (sessionId : String) : List SessionEventRow :=
  (eventsOf db sessionId).filter fun e => likeTaskPlan e.eventType

def getActiveTaskPlan (db : SessionDb) (sessionId : String) : Option Dict :=
  match (taskPlanEvents db sessionId).foldl (project lib) none with
  | none => none
  | some plan => if plan.status = .active then some plan.modelDump else none

end

inductive PlanSignal where
  | stepCompleted (signal : TaskPlanStepCompleted)
  | stepBlocked (signal : TaskPlanStepBlocked)
  | abandoned (signal : TaskPlanTerminalSignal)
  | completed (signal : TaskPlanTerminalSignal)

def PlanSignal.signals : PlanSignal → TaskPlanSignals
  | .stepCompleted signal => { stepCompleted := some signal }
  | .stepBlocked signal => { stepBlocked := some signal }
  | .abandoned signal => { abandoned := some signal }
  | .completed signal => { completed := some signal }

def foldSignals (plan : Option TaskPlan) (signals : List PlanSignal) : Except PlanError (Option TaskPlan) :=
  signals.foldlM (fun plan signal => applyTaskPlanSignals plan signal.signals) plan

def Records (lib : Library) : PlanSignal → SessionEventRow → Prop
  | .stepCompleted signal, e => e.eventType = "task_plan.step_completed" ∧ TaskPlanStepCompleted.validate lib e.payload = .ok signal
  | .stepBlocked signal, e => e.eventType = "task_plan.step_blocked" ∧ TaskPlanStepBlocked.validate lib e.payload = .ok signal
  | .abandoned signal, e => e.eventType = "task_plan.abandoned" ∧ TaskPlanTerminalSignal.validate lib e.payload = .ok signal
  | .completed signal, e => e.eventType = "task_plan.completed" ∧ TaskPlanTerminalSignal.validate lib e.payload = .ok signal

def Declares (lib : Library) (plan : TaskPlan) (e : SessionEventRow) : Prop :=
  e.eventType = "task_plan.declared" ∧ TaskPlan.validate lib (planPayload e.payload) = .ok plan

variable {lib : Library}

def declaration (plan : TaskPlan) : Dict := [("plan", .dict plan.modelDump)]

def PlanSignal.modelDump : PlanSignal → Dict
  | .stepCompleted signal =>
    [("plan_id", .str signal.planId), ("step_id", .str signal.stepId), ("outcome", .str signal.outcome),
      ("output_summary", .str signal.outputSummary), ("continue_plan_autonomously", .bool signal.continuePlanAutonomously)]
  | .stepBlocked signal =>
    [("plan_id", .str signal.planId), ("step_id", .str signal.stepId), ("blocker_type", .str signal.blockerType),
      ("blocker_details", .str signal.blockerDetails)]
  | .abandoned signal | .completed signal => [("plan_id", .str signal.planId), ("reason", .str signal.reason)]

variable {plan after : TaskPlan} {signal : PlanSignal} {e : SessionEventRow}

/-- What an accepted signal makes of a plan. -/
inductive Applied (plan : TaskPlan) : PlanSignal → TaskPlan → Prop where
  | stepCompleted {signal : TaskPlanStepCompleted} (hplan : signal.planId = plan.planId) :
    Applied plan (.stepCompleted signal) (applyStepCompleted plan signal)
  | stepBlocked {signal : TaskPlanStepBlocked} (hplan : signal.planId = plan.planId) :
    Applied plan (.stepBlocked signal) (applyStepBlocked plan signal)
  | abandoned {signal : TaskPlanTerminalSignal} (hplan : signal.planId = plan.planId) :
    Applied plan (.abandoned signal) { plan with status := .abandoned }
  | completed {signal : TaskPlanTerminalSignal} (hplan : signal.planId = plan.planId) :
    Applied plan (.completed signal) { plan with status := .completed }

theorem updateStep_ok {steps after : List TaskPlanStep} {stepId : String} {update : TaskPlanStep → TaskPlanStep}
    (h : updateStep steps stepId update = .ok after) : after = steps.map fun s => if s.stepId ≠ stepId then s else update s := by
  rw [updateStep] at h
  split at h
  · cases h
    refine List.map_congr_left ?_
    intro s _
    exact (ite_not _ _ _).symm
  · cases h

theorem applied_of_accepted {result : Option TaskPlan} (h : applyTaskPlanSignals (some plan) signal.signals = .ok result) :
    ∃ after, result = some after ∧ Applied plan signal after := by
  cases signal with
  | stepCompleted signal =>
    simp [applyTaskPlanSignals, PlanSignal.signals, TaskPlanSignals.planIds] at h
    split at h
    · next hplan =>
      obtain ⟨steps, hsteps, h⟩ := bind_ok_iff.mp h
      cases h
      rw [updateStep_ok hsteps]
      exact ⟨_, rfl, .stepCompleted hplan⟩
    · cases h
  | stepBlocked signal =>
    simp [applyTaskPlanSignals, PlanSignal.signals, TaskPlanSignals.planIds] at h
    split at h
    · next hplan =>
      obtain ⟨steps, hsteps, hnext⟩ := bind_ok_iff.mp h
      obtain ⟨blocked, hblocked, hresult⟩ := bind_ok_iff.mp hnext
      cases hresult
      cases hsteps
      rw [updateStep_ok hblocked]
      exact ⟨_, rfl, .stepBlocked hplan⟩
    · cases h
  | abandoned signal =>
    simp [applyTaskPlanSignals, PlanSignal.signals, TaskPlanSignals.planIds] at h
    split at h
    · next hplan =>
      cases h
      exact ⟨_, rfl, .abandoned hplan⟩
    · cases h
  | completed signal =>
    simp [applyTaskPlanSignals, PlanSignal.signals, TaskPlanSignals.planIds] at h
    split at h
    · next hplan =>
      obtain ⟨steps, hsteps, hnext⟩ := bind_ok_iff.mp h
      obtain ⟨same, hsame, hresult⟩ := bind_ok_iff.mp hnext
      cases hsteps
      cases hsame
      split at hresult
      · cases hresult
      · cases hresult
        exact ⟨_, rfl, .completed hplan⟩
    · cases h

def activeOf (plan : TaskPlan) : Option TaskPlan := if plan.status = .active then some plan else none

theorem Applied.status (h : Applied plan signal after) (hplan : plan.status ≠ .active) : after.status ≠ .active := by
  cases h with
  | stepCompleted => exact hplan
  | stepBlocked => exact hplan
  | abandoned => exact fun hstatus => nomatch hstatus
  | completed => exact fun hstatus => nomatch hstatus

theorem Records.notDeclared (h : Records lib signal e) : e.eventType ≠ "task_plan.declared" := by
  cases signal <;> rw [h.1] <;> decide +kernel

theorem project_of_active (hactive : plan.status = .active) (happlied : Applied plan signal after) (hrecords : Records lib signal e) :
    project lib (some plan) e = activeOf after := by
  rw [project, if_neg hrecords.notDeclared]
  cases happlied with
  | stepCompleted hplan =>
    simp [projectActive, hrecords.1, hrecords.2, bind, Except.bind, hplan, activeOf, applyStepCompleted, hactive]
  | stepBlocked hplan =>
    simp [projectActive, hrecords.1, hrecords.2, bind, Except.bind, hplan, activeOf, applyStepBlocked, hactive]
  | abandoned hplan => simp [projectActive, hrecords.1, hrecords.2, bind, Except.bind, hplan, activeOf]
  | completed hplan => simp [projectActive, hrecords.1, hrecords.2, bind, Except.bind, hplan, activeOf]

theorem project_applied (happlied : Applied plan signal after) (hrecords : Records lib signal e) :
    project lib (activeOf plan) e = activeOf after := by
  by_cases hactive : plan.status = .active
  · rw [activeOf, if_pos hactive]
    exact project_of_active hactive happlied hrecords
  · rw [activeOf, activeOf, if_neg hactive, if_neg (happlied.status hactive), project, if_neg hrecords.notDeclared]

theorem foldl_project {signals : List PlanSignal} {events : List SessionEventRow} {last : Option TaskPlan}
    (hrecords : List.Forall₂ (Records lib) signals events) (hfold : foldSignals (some plan) signals = .ok last) :
    ∃ final, last = some final ∧ events.foldl (project lib) (activeOf plan) = activeOf final := by
  induction hrecords generalizing plan with
  | nil =>
    cases hfold
    exact ⟨plan, rfl, rfl⟩
  | cons hrecord _ ih =>
    rw [foldSignals, List.foldlM_cons] at hfold
    obtain ⟨result, hresult, hfold⟩ := bind_ok_iff.mp hfold
    obtain ⟨after, rfl, happlied⟩ := applied_of_accepted hresult
    obtain ⟨final, hlast, hprojected⟩ := ih hfold
    refine ⟨final, hlast, ?_⟩
    rw [List.foldl_cons, project_applied happlied hrecord]
    exact hprojected

/-- The log that declares an active plan and records signals that the checkpoint accepts has the plan of the
checkpoint as its active plan, and none once that is completed or abandoned. -/
theorem getActiveTaskPlan_eq {db : SessionDb} {sessionId : String} {declared : SessionEventRow} {events : List SessionEventRow}
    {signals : List PlanSignal} {final : TaskPlan} (hlog : taskPlanEvents db sessionId = declared :: events)
    (hdeclared : Declares lib plan declared) (hactive : plan.status = .active)
    (hevents : List.Forall₂ (Records lib) signals events) (hfold : foldSignals (some plan) signals = .ok (some final)) :
    getActiveTaskPlan lib db sessionId = if final.status = .active then some final.modelDump else none := by
  have hdeclaration : project lib none declared = activeOf plan := by
    rw [project, if_pos hdeclared.1, hdeclared.2, activeOf, if_pos hactive]
  obtain ⟨last, hlast, hprojected⟩ := foldl_project hevents hfold
  cases hlast
  rw [getActiveTaskPlan, hlog, List.foldl_cons, hdeclaration, hprojected, activeOf]
  by_cases hstatus : final.status = .active
  · simp [hstatus]
  · simp [hstatus]

/-- An event of the session `s`. -/
def sessionEvent (seq : ℕ) (eventType : String) (payload : Dict) : SessionEventRow where
  eventId := eventType
  sessionId := "s"
  seq := seq
  timestamp := ⟨0, IsoTimestamps.zero_lt_endOfTime⟩
  eventType := eventType
  actorType := "system"
  actorId := none
  traceId := none
  spanId := none
  taskId := none
  parentEventId := none
  payload := payload
  refs := []
  importance := 1
  redaction := "none"

def shipPlan : TaskPlan where
  planId := "p"
  objective := "ship"
  steps := [{ stepId := "build", description := "make" }, { stepId := "test", description := "run", dependsOn := ["build"] }]

def buildBlocked : PlanSignal := .stepBlocked { planId := "p", stepId := "build", blockerType := "tool", blockerDetails := "no make" }

def buildCompleted : PlanSignal := .stepCompleted { planId := "p", stepId := "build", outputSummary := "made" }

def testBlocked : PlanSignal := .stepBlocked { planId := "p", stepId := "test", blockerType := "user" }

def builtPlan : TaskPlan where
  planId := "p"
  objective := "ship"
  steps := [{ stepId := "build", description := "make", status := .completed, outputSummary := "made" },
    { stepId := "test", description := "run", dependsOn := ["build"], status := .blocked, blockerType := some "user",
      blockerDetails := some "" }]

def shipDb : SessionDb where
  sessionEvents := [sessionEvent 1 "task_plan.declared" (declaration shipPlan),
    sessionEvent 2 "task_plan.step_blocked" buildBlocked.modelDump,
    sessionEvent 3 "task_plan.step_completed" buildCompleted.modelDump,
    sessionEvent 4 "task_plan.step_blocked" testBlocked.modelDump]

theorem getActiveTaskPlan_eq_built : getActiveTaskPlan plainLibrary shipDb "s" = some builtPlan.modelDump := by
  have hdeclared : Declares plainLibrary shipPlan (sessionEvent 1 "task_plan.declared" (declaration shipPlan)) := ⟨rfl, by rfl⟩
  have hblocked : Records plainLibrary buildBlocked (sessionEvent 2 "task_plan.step_blocked" buildBlocked.modelDump) := ⟨rfl, by rfl⟩
  have hcompleted : Records plainLibrary buildCompleted (sessionEvent 3 "task_plan.step_completed" buildCompleted.modelDump) :=
    ⟨rfl, by rfl⟩
  have hwaiting : Records plainLibrary testBlocked (sessionEvent 4 "task_plan.step_blocked" testBlocked.modelDump) := ⟨rfl, by rfl⟩
  have hfold : foldSignals (some shipPlan) [buildBlocked, buildCompleted, testBlocked] = .ok (some builtPlan) := by rfl
  exact getActiveTaskPlan_eq (by rfl) hdeclared rfl (.cons hblocked (.cons hcompleted (.cons hwaiting .nil))) hfold

end OpenMinion.TaskPlanProjections
