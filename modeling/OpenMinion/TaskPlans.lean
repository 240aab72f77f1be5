import OpenMinion.AbortableLoops
import OpenMinion.DepthFirstSearch
import OpenMinion.JsonValues
import OpenMinion.PythonText

/-!
# Task plans

A plan is validated from a payload. One with valid fields is accepted exactly when it has steps, their ids are distinct,
every dependency names a step and no step depends on itself through others.
-/
namespace OpenMinion.TaskPlans
open AbortableLoops DepthFirstSearch JsonValues PythonText Relation

structure Library where
  /-- `str(value)` of a value that is not a string. -/
  strOf : Json → String
  /-- `repr(text)`. -/
  reprText : String → String

inductive PlanError where
  /-- A field that the model refuses. All of them are reported; this is the first. -/
  | field (name : String)
  /-- A `ValueError` with its text. -/
  | value (text : String)
  /-- The recursion limit. -/
  | recursion
  deriving DecidableEq

section
variable (lib : Library)

/-- `str(value)`. -/
def pyStr : Json → String
  | .str text => text
  | value => lib.strOf value

def trimmedNonEmpty (value : Json) : String := strip (if value.truthy then pyStr lib value else "")

def taskPlanOutputSummaryMaxChars : ℕ := 240

/-- `text[:limit].rstrip()`. -/
def cutText (limit : ℕ) (text : String) : String := String.ofList ((text.toList.take limit).rdropWhile isSpace)

def boundedOutputSummary (value : Json) : String :=
  let text := trimmedNonEmpty lib value
  if text.length ≤ taskPlanOutputSummaryMaxChars then text else cutText taskPlanOutputSummaryMaxChars text

def optionalText (value : Json) : Option String :=
  if trimmedNonEmpty lib value = "" then none else some (trimmedNonEmpty lib value)

def requiredText (payload : Dict) (name : String) : Except PlanError String :=
  if trimmedNonEmpty lib (payload.get name) = "" then .error (.field name)
  else .ok (trimmedNonEmpty lib (payload.get name))

def fieldOr {β : Type} (payload : Dict) (name : String) (default : β) (read : Json → Option β) : Except PlanError β :=
  if payload.has name then
    match read (payload.get name) with
    | some value => .ok value
    | none => .error (.field name)
  else .ok default

/-- A value of a `Literal` type. -/
def readLiteral {β : Type} (all : List β) (text : β → String) : Json → Option β
  | .str s => all.find? fun b => text b = s
  | _ => none

/-- A `bool` field, which takes numbers and words too. -/
def readBool : Json → Option Bool
  | .bool b => some b
  | .int n => if n = 0 then some false else if n = 1 then some true else none
  | .float q => if q = 0 then some false else if q = 1 then some true else none
  | .str s =>
    let word := String.ofList (s.toList.map Char.toLower)
    if word ∈ ["0", "off", "f", "false", "n", "no"] then some false
    else if word ∈ ["1", "on", "t", "true", "y", "yes"] then some true
    else none
  | _ => none

/-- A `list[str]` field. -/
def readTexts : Json → Option (List String)
  | .list items => items.mapM fun
    | .str s => some s
    | _ => none
  | _ => none

def normalizeDependsOn : Json → Option (List String)
  | .null => some []
  | .list items => some ((items.map (trimmedNonEmpty lib)).filter (· ≠ ""))
  | _ => none

def taskPlanToolFamilies : List String :=
  ["browser", "code", "exec", "fetch", "file", "ip", "location", "search", "skill", "task", "time", "utility",
    "weather", "web"]

/-- `_normalize_tool_families`, one item. -/
def addToolFamily (families : List String) (item : Json) : Option (List String) :=
  let family := trimmedNonEmpty lib item
  if family = "" then some families
  else if family ∉ taskPlanToolFamilies then none
  else if family ∈ families then some families
  else some (families ++ [family])

def normalizeToolFamilies : Json → Option (List String)
  | .null => some []
  | .list items => items.foldlM (addToolFamily lib) []
  | _ => none

end

inductive TaskPlanStatus where
  | active
  | completed
  | abandoned
  deriving DecidableEq

inductive TaskPlanStepStatus where
  | pending
  | inProgress
  | completed
  | blocked
  deriving DecidableEq

inductive TaskPlanDifficulty where
  | low
  | medium
  | high
  deriving DecidableEq

def TaskPlanStatus.text : TaskPlanStatus → String
  | active => "active"
  | completed => "completed"
  | abandoned => "abandoned"

def TaskPlanStepStatus.text : TaskPlanStepStatus → String
  | pending => "pending"
  | inProgress => "in_progress"
  | completed => "completed"
  | blocked => "blocked"

def TaskPlanDifficulty.text : TaskPlanDifficulty → String
  | low => "low"
  | medium => "medium"
  | high => "high"

def TaskPlanStatus.read : Json → Option TaskPlanStatus := readLiteral [active, completed, abandoned] text

def TaskPlanStepStatus.read : Json → Option TaskPlanStepStatus :=
  readLiteral [pending, inProgress, completed, blocked] text

def TaskPlanDifficulty.read : Json → Option TaskPlanDifficulty := readLiteral [low, medium, high] text

structure TaskPlanStep where
  stepId : String
  description : String
  status : TaskPlanStepStatus := .pending
  estimatedDifficulty : TaskPlanDifficulty := .medium
  dependsOn : List String := []
  toolFamilies : List String := []
  outputSummary : String := ""
  blockerType : Option String := none
  blockerDetails : Option String := none
  assignedParticipantId : Option String := none
  workerSessionId : Option String := none
  continuationPacketId : Option String := none
  deriving DecidableEq

structure PlanHeader where
  planId : String
  objective : String
  workflowId : Option String := none
  workflowVersionHash : Option String := none
  rootGoalId : Option String := none
  criterionIds : List String := []
  status : TaskPlanStatus := .active
  continuePlanAutonomously : Bool := false
  deriving DecidableEq

structure TaskPlan extends PlanHeader where
  steps : List TaskPlanStep
  deriving DecidableEq

def depsByStep (steps : List TaskPlanStep) (stepId : String) : List String :=
  ((steps.reverse.find? fun s => s.stepId = stepId).map TaskPlanStep.dependsOn).getD []

def unknownDependency (steps : List TaskPlanStep) : Option (String × String) :=
  steps.findSome? fun s => (s.dependsOn.find? fun d => d ∉ steps.map TaskPlanStep.stepId).map fun d => (s.stepId, d)

section
variable (lib : Library)

/-- `TaskPlan._validate_step_graph`. One frame for each step is deep enough for the search. -/
def validateStepGraph (steps : List TaskPlanStep) : Except PlanError Unit :=
  let stepIds := steps.map TaskPlanStep.stepId
  if ¬ stepIds.Nodup then .error (.value "TaskPlan steps must have unique step_id values")
  else
    match unknownDependency steps with
    | some (stepId, dependency) =>
      .error (.value ("TaskPlan step " ++ lib.reprText stepId ++ " depends on unknown step " ++ lib.reprText dependency))
    | none =>
      match visitAll (depsByStep steps) (stepIds.length + 1) stepIds with
      | .ok _ => .ok ()
      | .error .cycle => .error (.value "TaskPlan dependencies must be acyclic")
      | .error .depth => .error .recursion

/-- `TaskPlanStep.model_validate` of a mapping. -/
def TaskPlanStep.validateFields (payload : Dict) : Except PlanError TaskPlanStep := do
  .ok {
    stepId := ← requiredText lib payload "step_id"
    description := ← requiredText lib payload "description"
    status := ← fieldOr payload "status" .pending TaskPlanStepStatus.read
    estimatedDifficulty := ← fieldOr payload "estimated_difficulty" .medium TaskPlanDifficulty.read
    dependsOn := ← fieldOr payload "depends_on" [] (normalizeDependsOn lib)
    toolFamilies := ← fieldOr payload "tool_families" [] (normalizeToolFamilies lib)
    outputSummary := boundedOutputSummary lib (payload.get "output_summary")
    blockerType := optionalText lib (payload.get "blocker_type")
    blockerDetails := optionalText lib (payload.get "blocker_details")
    assignedParticipantId := optionalText lib (payload.get "assigned_participant_id")
    workerSessionId := optionalText lib (payload.get "worker_session_id")
    continuationPacketId := optionalText lib (payload.get "continuation_packet_id") }

def TaskPlanStep.validate : Json → Except PlanError TaskPlanStep
  | .dict payload => validateFields lib payload
  | _ => .error (.field "steps")

def PlanHeader.validate (payload : Dict) : Except PlanError PlanHeader := do
  .ok {
    planId := ← requiredText lib payload "plan_id"
    objective := ← requiredText lib payload "objective"
    workflowId := optionalText lib (payload.get "workflow_id")
    workflowVersionHash := optionalText lib (payload.get "workflow_version_hash")
    rootGoalId := optionalText lib (payload.get "root_goal_id")
    criterionIds := ← fieldOr payload "criterion_ids" [] readTexts
    status := ← fieldOr payload "status" .active TaskPlanStatus.read
    continuePlanAutonomously := ← fieldOr payload "continue_plan_autonomously" false readBool }

/-- The items of the field `steps`. -/
def validateSteps (payload : Dict) : Except PlanError (List TaskPlanStep) :=
  match payload.get "steps" with
  | .list items => items.mapM (TaskPlanStep.validate lib)
  | _ => .error (.field "steps")

/-- `TaskPlan.model_validate`. -/
def TaskPlan.validate (payload : Dict) : Except PlanError TaskPlan := do
  let header ← PlanHeader.validate lib payload
  let steps ← validateSteps lib payload
  -- `min_length=1`
  if steps = [] then .error (.field "steps")
  else do
    validateStepGraph lib steps
    .ok { header with steps }

end

variable {lib : Library} {steps : List TaskPlanStep}

/-- The step with the first id has the second as a dependency. -/
def DependsOn (steps : List TaskPlanStep) (a b : String) : Prop := ∃ s ∈ steps, s.stepId = a ∧ b ∈ s.dependsOn

/-- The graph that a plan may have. -/
structure PlanGraph (steps : List TaskPlanStep) : Prop where
  distinct : (steps.map TaskPlanStep.stepId).Nodup
  known : ∀ s ∈ steps, ∀ d ∈ s.dependsOn, d ∈ steps.map TaskPlanStep.stepId
  acyclic : ∀ a, ¬ TransGen (DependsOn steps) a a

theorem unknownDependency_eq_none_iff :
    unknownDependency steps = none ↔ ∀ s ∈ steps, ∀ d ∈ s.dependsOn, d ∈ steps.map TaskPlanStep.stepId := by
  simp [unknownDependency, List.findSome?_eq_none_iff]

theorem edge_iff (hdistinct : (steps.map TaskPlanStep.stepId).Nodup) {a b : String} :
    Edge (depsByStep steps) a b ↔ DependsOn steps a b := by
  rw [Edge, depsByStep]
  cases hfind : steps.reverse.find? fun s => s.stepId = a with
  | none =>
    have hnone : ∀ s ∈ steps, s.stepId ≠ a := by simpa using hfind
    simp only [Option.map_none, Option.getD_none, List.not_mem_nil, false_iff]
    rintro ⟨s, hs, hid, -⟩
    exact hnone s hs hid
  | some s =>
    have hid : s.stepId = a := by simpa using List.find?_some hfind
    have hs : s ∈ steps := List.mem_reverse.mp (List.mem_of_find?_eq_some hfind)
    simp only [Option.map_some, Option.getD_some]
    constructor
    · intro hb
      exact ⟨s, hs, hid, hb⟩
    · rintro ⟨t, ht, htid, hb⟩
      have hst : s = t := List.inj_on_of_nodup_map hdistinct hs ht (hid.trans htid.symm)
      exact hst ▸ hb

theorem validateStepGraph_ok_iff : validateStepGraph lib steps = .ok () ↔ PlanGraph steps := by
  rw [validateStepGraph]
  by_cases hdistinct : (steps.map TaskPlanStep.stepId).Nodup
  · rw [if_neg (not_not.mpr hdistinct)]
    cases hunknown : unknownDependency steps with
    | some pair =>
      refine ⟨fun h => (nomatch h), fun h => ?_⟩
      rw [unknownDependency_eq_none_iff.mpr h.known] at hunknown
      cases hunknown
    | none =>
      have hknown := unknownDependency_eq_none_iff.mp hunknown
      have hedge : Edge (depsByStep steps) = DependsOn steps := by
        funext a b
        exact propext (edge_iff hdistinct)
      have hnodes : ∀ a b, b ∈ depsByStep steps a → a ∈ steps.map TaskPlanStep.stepId ∧ b ∈ steps.map TaskPlanStep.stepId := by
        intro a b hb
        obtain ⟨s, hs, rfl, hdepends⟩ := (edge_iff hdistinct).mp hb
        exact ⟨List.mem_map_of_mem hs, hknown s hs b hdepends⟩
      have hsearch := visitAll_ok_iff hnodes (Nat.lt_succ_self _)
      have hacyclic : (∀ a, OffCycle (depsByStep steps) a) ↔ PlanGraph steps := by
        simp only [OffCycle, hedge]
        exact ⟨fun h => ⟨hdistinct, hknown, h⟩, fun h => h.acyclic⟩
      rw [← hacyclic, ← hsearch]
      cases hvisit : visitAll (depsByStep steps) ((steps.map TaskPlanStep.stepId).length + 1) (steps.map TaskPlanStep.stepId) with
      | ok m => simp
      | error stop => cases stop <;> simp
  · rw [if_pos hdistinct]
    exact ⟨fun h => (nomatch h), fun h => absurd h.distinct hdistinct⟩

/-- A plan with valid fields is accepted exactly when it has steps and its graph is right. -/
theorem graph_accepted_iff {payload : Dict} {header : PlanHeader} (hheader : PlanHeader.validate lib payload = .ok header)
    (hsteps : validateSteps lib payload = .ok steps) :
    (∃ plan, TaskPlan.validate lib payload = .ok plan) ↔
      steps ≠ [] ∧ (steps.map TaskPlanStep.stepId).Nodup ∧
        (∀ s ∈ steps, ∀ d ∈ s.dependsOn, ∃ t ∈ steps, t.stepId = d) ∧ ∀ a, ¬ TransGen (DependsOn steps) a a := by
  have hgraph : PlanGraph steps ↔ (steps.map TaskPlanStep.stepId).Nodup ∧
      (∀ s ∈ steps, ∀ d ∈ s.dependsOn, ∃ t ∈ steps, t.stepId = d) ∧ ∀ a, ¬ TransGen (DependsOn steps) a a := by
    simp only [← List.mem_map]
    exact ⟨fun h => ⟨h.distinct, h.known, h.acyclic⟩, fun h => ⟨h.1, h.2.1, h.2.2⟩⟩
  have hvalid : validateStepGraph lib steps = .ok () ↔ PlanGraph steps := validateStepGraph_ok_iff
  rw [← hgraph, ← hvalid]
  by_cases hempty : steps = []
  · simp [TaskPlan.validate, hheader, hsteps, hempty, bind, Except.bind]
  · cases hresult : validateStepGraph lib steps with
    | ok => simp [TaskPlan.validate, hheader, hsteps, hempty, hresult, bind, Except.bind]
    | error e => simp [TaskPlan.validate, hheader, hsteps, hempty, hresult, bind, Except.bind]

def plainLibrary : Library where
  strOf _ := ""
  reprText text := "'" ++ text ++ "'"

def pairPayload : Dict :=
  [("plan_id", .str "p"), ("objective", .str "ship"),
    ("steps", .list [.dict [("step_id", .str "test"), ("description", .str "run"), ("depends_on", .list [.str " build "])],
      .dict [("step_id", .str "build"), ("description", .str "make")]])]

def pairSteps : List TaskPlanStep :=
  [{ stepId := "test", description := "run", dependsOn := ["build"] }, { stepId := "build", description := "make" }]

theorem graph_accepted_pair : (pairSteps.map TaskPlanStep.stepId).Nodup ∧
    (∀ s ∈ pairSteps, ∀ d ∈ s.dependsOn, ∃ t ∈ pairSteps, t.stepId = d) ∧ ∀ a, ¬ TransGen (DependsOn pairSteps) a a := by
  have hheader : PlanHeader.validate plainLibrary pairPayload = .ok { planId := "p", objective := "ship" } := by rfl
  have hsteps : validateSteps plainLibrary pairPayload = .ok pairSteps := by rfl
  have hplan : TaskPlan.validate plainLibrary pairPayload = .ok { planId := "p", objective := "ship", steps := pairSteps } := by rfl
  exact ((graph_accepted_iff hheader hsteps).mp ⟨_, hplan⟩).2

/-- A plan without steps has a graph without faults, and `min_length=1` refuses it. -/
theorem empty_plan_refused :
    ¬ ∀ (lib : Library) (payload : Dict) (header : PlanHeader) (steps : List TaskPlanStep),
      PlanHeader.validate lib payload = .ok header → validateSteps lib payload = .ok steps →
        ((∃ plan, TaskPlan.validate lib payload = .ok plan) ↔
          (steps.map TaskPlanStep.stepId).Nodup ∧ (∀ s ∈ steps, ∀ d ∈ s.dependsOn, ∃ t ∈ steps, t.stepId = d) ∧
            ∀ a, ¬ TransGen (DependsOn steps) a a) := by
  intro h
  have haccepts := h plainLibrary [("plan_id", .str "p"), ("objective", .str "ship"), ("steps", .list [])]
    { planId := "p", objective := "ship" } [] (by rfl) (by rfl)
  have hacyclic : ∀ a, ¬ TransGen (DependsOn []) a a := by
    intro a hcycle
    obtain ⟨_, ⟨s, hs, _⟩, _⟩ := TransGen.head'_iff.mp hcycle
    cases hs
  obtain ⟨plan, hplan⟩ := haccepts.mpr ⟨List.nodup_nil, by simp, hacyclic⟩
  have hrefused : TaskPlan.validate plainLibrary [("plan_id", .str "p"), ("objective", .str "ship"), ("steps", .list [])] =
      .error (.field "steps") := by rfl
  rw [hrefused] at hplan
  cases hplan

def optionalJson : Option String → Json
  | none => .null
  | some text => .str text

def TaskPlanStep.modelDump (s : TaskPlanStep) : Dict :=
  [("step_id", .str s.stepId), ("description", .str s.description), ("status", .str s.status.text),
    ("estimated_difficulty", .str s.estimatedDifficulty.text), ("depends_on", .list (s.dependsOn.map .str)),
    ("tool_families", .list (s.toolFamilies.map .str)), ("output_summary", .str s.outputSummary),
    ("blocker_type", optionalJson s.blockerType), ("blocker_details", optionalJson s.blockerDetails),
    ("assigned_participant_id", optionalJson s.assignedParticipantId),
    ("worker_session_id", optionalJson s.workerSessionId),
    ("continuation_packet_id", optionalJson s.continuationPacketId)]

def TaskPlan.modelDump (plan : TaskPlan) : Dict :=
  [("plan_id", .str plan.planId), ("objective", .str plan.objective), ("workflow_id", optionalJson plan.workflowId),
    ("workflow_version_hash", optionalJson plan.workflowVersionHash), ("root_goal_id", optionalJson plan.rootGoalId),
    ("criterion_ids", .list (plan.criterionIds.map .str)), ("status", .str plan.status.text),
    ("steps", .list (plan.steps.map fun s => .dict s.modelDump)),
    ("continue_plan_autonomously", .bool plan.continuePlanAutonomously)]

end OpenMinion.TaskPlans
