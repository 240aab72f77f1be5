import Mathlib.Data.List.Infix
import OpenMinion.JsonValues
import OpenMinion.PythonText

/-!
# Context packs

What `build_pack` makes of a request, the slice of its session and the recall state before it. The clients and the
renderers are functions of what the source gives them and of what other collaborators answer.
-/
namespace OpenMinion.ContextPackBuild
open JsonValues PythonText

inductive Purpose where
  | decide
  | plan
  | act
  | reflect
  | summarize
  | judge
  | validate
  | chat
  deriving DecidableEq

def Purpose.text : Purpose → String
  | .decide => "decide"
  | .plan => "plan"
  | .act => "act"
  | .reflect => "reflect"
  | .summarize => "summarize"
  | .judge => "judge"
  | .validate => "validate"
  | .chat => "chat"

structure SkillSnippetRef where
  skillId : String
  versionHash : Option String := none
  deriving DecidableEq

structure BuildConstraints where
  canonicalToolReplay : Bool := false
  outputSchema : Option Dict := none
  styleOverrides : Dict := []
  safetyTags : List String := []
  procedureId : Option String := none
  skillId : Option String := none
  skillVersionHash : Option String := none
  skillRefs : List SkillSnippetRef := []
  contextBudgetTier : Option String := none
  toolSchemas : List Dict := []
  runtimeToolSchemas : List Dict := []
  deriving DecidableEq

structure ContextBudgets where
  totalMaxTokens : ℕ
  identityTokens : ℕ
  summaryTokens : ℕ
  conversationSummaryTokens : ℕ := 0
  activePlanTokens : ℕ := 0
  taskDigestTokens : ℕ := 0
  trailerFeedbackTokens : ℕ := 0
  recentTurnTokens : ℕ
  factsTokens : ℕ
  memoryTokens : ℕ
  skillsTokens : ℕ
  artifactTokens : ℕ
  instructionsTokens : ℕ
  deriving DecidableEq

/-- A `ContextBudgets` with the fields that were given when it was constructed: the four with
a default may be unset. -/
structure BudgetsOverride where
  totalMaxTokens : ℕ
  identityTokens : ℕ
  summaryTokens : ℕ
  conversationSummaryTokens : Option ℕ := none
  activePlanTokens : Option ℕ := none
  taskDigestTokens : Option ℕ := none
  trailerFeedbackTokens : Option ℕ := none
  recentTurnTokens : ℕ
  factsTokens : ℕ
  memoryTokens : ℕ
  skillsTokens : ℕ
  artifactTokens : ℕ
  instructionsTokens : ℕ
  deriving DecidableEq

structure BuildPackRequest where
  sessionId : String
  agentId : String
  purpose : Purpose
  modeName : Option String := none
  query : String
  continuityQuery : String := ""
  providerPref : Option String := none
  budgetsOverride : Option BudgetsOverride := none
  constraints : Option BuildConstraints := none
  modelHint : Option String := none
  llmCallId : Option String := none
  introspectionIntent : Bool := false
  budgetTelemetry : Dict := []
  liveStateOverlay : Dict := []
  phaseHints : Dict := []
  gatewaySystemContext : String := ""
  includeIdentity : Bool := true
  selfAwareness : Dict := []
  deriving DecidableEq

structure SessionTurn where
  turnId : String
  role : String
  content : String
  ts : Option String := none
  isError : Bool := false
  deriving DecidableEq

structure SessionToolEvent where
  eventId : String
  toolName : String
  excerpt : String
  artifactRefs : List String := []
  deriving DecidableEq

structure TaskPlan where
  status : String
  body : Json
  deriving DecidableEq

structure SessionSlice where
  sessionId : String
  lastEventId : Option String := none
  summaryShort : String := ""
  summaryLong : Option String := none
  conversationSummary : String := ""
  activeTaskPlan : Option TaskPlan := none
  continuation : Option Dict := none
  taskDigest : Option Dict := none
  pendingTrailerFeedback : Option Dict := none
  totalTurnCount : ℕ := 0
  recentTurns : List SessionTurn := []
  openTasks : List String := []
  activeState : Option Dict := none
  recentToolEvents : List SessionToolEvent := []
  checkpointId : Option String := none
  seedBundleId : Option String := none
  archiveRefs : List String := []
  deriving DecidableEq

def SessionSlice.shown (slice : SessionSlice) : SessionSlice := { slice with lastEventId := none }

/-- `int(total_turn_count or len(recent_turns))`. -/
def SessionSlice.turnIndex (slice : SessionSlice) : ℕ :=
  if slice.totalTurnCount = 0 then slice.recentTurns.length else slice.totalTurnCount

def applyLiveStateOverlay (slice : SessionSlice) (overlay : Dict) : SessionSlice :=
  if overlay = [] then slice
  else
    let given := overlay.filter fun item => item.2 ≠ .null
    { slice with activeState := some (given.foldl (fun d item => Dict.set d item.1 item.2) (slice.activeState.getD [])) }

def contextBudgetPreset : Purpose → ContextBudgets
  | .decide => ⟨2200, 160, 300, 300, 400, 240, 200, 1400, 150, 150, 120, 50, 80⟩
  | .plan => ⟨3500, 220, 350, 0, 0, 0, 0, 1000, 250, 700, 250, 600, 130⟩
  | .act => ⟨1800, 180, 250, 0, 0, 0, 0, 650, 150, 250, 250, 200, 120⟩
  | .reflect => ⟨2800, 220, 300, 0, 0, 0, 0, 700, 200, 900, 80, 400, 120⟩
  | .judge => ⟨3000, 200, 250, 0, 0, 0, 0, 600, 500, 400, 80, 700, 120⟩
  | .validate => ⟨3000, 200, 250, 0, 0, 0, 0, 600, 500, 400, 80, 700, 120⟩
  | .summarize => ⟨2200, 180, 300, 0, 0, 0, 0, 750, 220, 420, 60, 180, 90⟩
  | .chat => ⟨1600, 150, 220, 0, 0, 0, 0, 700, 120, 200, 40, 70, 100⟩

def decideBudgetForTurnDepth (turnCount : ℕ) : ContextBudgets :=
  if turnCount ≤ 2 then ⟨2200, 160, 300, 0, 400, 240, 0, 1000, 150, 150, 120, 50, 80⟩
  else if turnCount ≤ 5 then contextBudgetPreset .decide
  else if turnCount ≤ 10 then ⟨2800, 160, 300, 500, 400, 240, 0, 1600, 150, 150, 120, 50, 80⟩
  else ⟨3200, 160, 300, 800, 400, 240, 0, 1600, 150, 150, 120, 50, 80⟩

/-- `data.update(override.model_dump(exclude_unset=True))`. -/
def BudgetsOverride.over (o : BudgetsOverride) (base : ContextBudgets) : ContextBudgets where
  totalMaxTokens := o.totalMaxTokens
  identityTokens := o.identityTokens
  summaryTokens := o.summaryTokens
  conversationSummaryTokens := o.conversationSummaryTokens.getD base.conversationSummaryTokens
  activePlanTokens := o.activePlanTokens.getD base.activePlanTokens
  taskDigestTokens := o.taskDigestTokens.getD base.taskDigestTokens
  trailerFeedbackTokens := o.trailerFeedbackTokens.getD base.trailerFeedbackTokens
  recentTurnTokens := o.recentTurnTokens
  factsTokens := o.factsTokens
  memoryTokens := o.memoryTokens
  skillsTokens := o.skillsTokens
  artifactTokens := o.artifactTokens
  instructionsTokens := o.instructionsTokens

/-- `override.model_dump()`, in which an unset field has its default. -/
def BudgetsOverride.dump (o : BudgetsOverride) : ContextBudgets := o.over ⟨0, 0, 0, 0, 0, 0, 0, 0, 0, 0, 0, 0, 0⟩

def resolveBudgets (purpose : Purpose) (override : Option BudgetsOverride) (turnCount : ℕ) : ContextBudgets :=
  let base := if purpose = .decide ∧ 0 < turnCount then decideBudgetForTurnDepth turnCount else contextBudgetPreset purpose
  match override with
  | none => base
  | some o => o.over base

inductive Mode where
  | respond
  | plan
  | act
  deriving DecidableEq

def normalizeModeName (modeName : Option String) : Option Mode :=
  match (stripOr modeName).map Char.toLower with
  | "respond" => some .respond
  | "plan" => some .plan
  | "act" => some .act
  | _ => none

def applyModeBudgetBias (b : ContextBudgets) (modeName : Option String) : ContextBudgets :=
  match normalizeModeName modeName with
  | none => b
  | some .respond =>
    { b with
      recentTurnTokens := max 160 (b.recentTurnTokens / 2)
      memoryTokens := max 120 (b.memoryTokens / 2)
      factsTokens := max b.factsTokens 180 }
  | some .plan =>
    { b with
      skillsTokens := max b.skillsTokens 320
      instructionsTokens := max b.instructionsTokens 240
      memoryTokens := max b.memoryTokens 320 }
  | some .act =>
    { b with
      recentTurnTokens := max 220 (b.recentTurnTokens - 120)
      skillsTokens := max b.skillsTokens 240 }

def applyContextBudgetTierBias (b : ContextBudgets) (tier : Option String) : ContextBudgets :=
  match tier with
  | some "short" =>
    { b with
      recentTurnTokens := max 160 (b.recentTurnTokens / 2)
      memoryTokens := max 120 (b.memoryTokens / 2)
      artifactTokens := max 50 (b.artifactTokens * 3 / 4) }
  | some "full" =>
    { b with
      recentTurnTokens := b.recentTurnTokens * 3 / 2
      memoryTokens := b.memoryTokens * 3 / 2
      artifactTokens := b.artifactTokens * 5 / 4 }
  | _ => b

def bucketCapsFor (b : ContextBudgets) : List (String × ℕ) :=
  [ ("static_prefix", b.identityTokens + b.instructionsTokens),
    ("mission_snapshot", max 64 (b.totalMaxTokens / 10)),
    ("summaries", b.summaryTokens),
    ("conversation_summary", b.conversationSummaryTokens),
    ("active_plan", b.activePlanTokens),
    ("task_digest", b.taskDigestTokens),
    ("self_awareness", max 64 (b.totalMaxTokens / 20)),
    ("recent_window", b.recentTurnTokens),
    ("memory", b.memoryTokens),
    ("retrieval", b.factsTokens + b.memoryTokens + b.skillsTokens),
    ("evidence_refs", b.artifactTokens),
    ("turn_input", max 64 (b.totalMaxTokens * 6 / 100)) ]

def fitToBudget (text : String) (cap : ℕ) : String :=
  if cap = 0 then ""
  else
    let compact := (strip text).toList
    if compact.length ≤ cap * 4 then String.ofList compact
    else String.ofList ((compact.take (cap * 4)).rdropWhile isSpace) ++ "\n...[truncated]"

structure FactRecord where
  recordId : String
  text : String
  score : ℚ := 0
  confidence : ℚ := 0
  ttlValid : Bool := true
  recordType : String := "fact"
  source : String := ""
  tags : List String := []
  metadata : Dict := []
  deriving DecidableEq

structure MemoryCard where
  recordId : String
  recordType : String
  text : String
  score : ℚ := 0
  pinned : Bool := false
  source : String := ""
  tags : List String := []
  metadata : Dict := []
  deriving DecidableEq

structure RecentSessionArtifactRef where
  recordId : String
  artifactType : String
  artifactPath : String
  artifactDigest : String := ""
  sessionId : String
  turnIndex : ℕ := 0
  toolName : String := ""
  deriving DecidableEq

structure ProcedureSnippet where
  procedureId : String
  title : String
  preflight : List String := []
  steps : List String := []
  rollbackHint : String := ""
  deriving DecidableEq

structure ArtifactDigest where
  ref : String
  viewId : Option String := none
  digestHash : String := ""
  bullets : List String := []
  excerpt : Option String := none
  score : ℚ := 0
  deriving DecidableEq

structure MidSessionIntentSnapshot where
  intentId : String
  status : String
  deriving DecidableEq

structure MidSessionRecallSnapshot where
  turnIndex : ℕ := 0
  intentStates : List MidSessionIntentSnapshot := []
  latestUserMessage : String := ""
  activeSkillId : Option String := none
  resolvedSkillIds : List String := []
  planCursor : ℕ := 0
  planStepIds : List String := []
  recentToolFamilies : List String := []
  deriving DecidableEq

/-- The memory, artifact and skill clients, which answer alike when asked alike. A recall that raises has no cards. -/
structure Clients where
  queryFacts : (sessionId agentId query : String) → (limit : ℕ) → (modeName : Option String) → List FactRecord
  queryMemoryCards : (sessionId agentId query : String) → (limit : ℕ) → (modeName : Option String) → List MemoryCard
  queryDigests : (sessionId agentId query : String) → (limit : ℕ) → List ArtifactDigest
  recallSessionStartMemory : (sessionId agentId query : String) → (turnIndex limit : ℕ) → (modeName : Option String) → List MemoryCard
  recallRecentSessionArtifacts : (sessionId agentId : String) → (maxResults maxSessionAge : ℕ) → (modeName : Option String) →
    List RecentSessionArtifactRef
  recallMidSessionMemory : (sessionId agentId : String) → MidSessionRecallSnapshot → (limit : ℕ) → (modeName : Option String) →
    List MemoryCard
  getProcedure : String → Option ProcedureSnippet
  renderSnippet : Option (SkillSnippetRef → Purpose → (maxTokens : ℕ) → (modeName : Option String) → Option String)

/-- What the producers of segments read of a request, besides its gateway context and its
self-awareness payload. -/
structure Asked where
  sessionId : String
  agentId : String
  purpose : Purpose
  modeName : Option String
  query : String
  continuityQuery : String
  constraints : BuildConstraints
  budgetTelemetry : Dict
  liveStateOverlay : Dict
  phaseHints : Dict
  includeIdentity : Bool
  deriving DecidableEq

def BuildPackRequest.asked (r : BuildPackRequest) : Asked where
  sessionId := r.sessionId
  agentId := r.agentId
  purpose := r.purpose
  modeName := r.modeName
  query := r.query
  continuityQuery := r.continuityQuery
  constraints := r.constraints.getD {}
  budgetTelemetry := r.budgetTelemetry
  liveStateOverlay := r.liveStateOverlay
  phaseHints := r.phaseHints
  includeIdentity := r.includeIdentity

def retrievalQueries (asked : Asked) : List String :=
  let continuity := strip asked.continuityQuery
  if continuity = "" ∨ continuity = strip asked.query then [asked.query] else [asked.query, continuity]

def dedupeBy {Item : Type} (identity : Item → String) (items : List Item) : List Item :=
  items.foldl (fun kept item => if kept.any (fun k => identity k = identity item) then kept else kept ++ [item]) []

def mergeQueryResults {Item : Type} (identity : Item → String) (limit : ℕ) (groups : List (List Item)) : List Item :=
  let longest := (groups.map List.length).foldl max 0
  let interleaved := (List.range longest).flatMap fun index => groups.filterMap fun group => group[index]?
  (dedupeBy identity interleaved).take limit

def dedupeMemoryCards (cards : List MemoryCard) : List MemoryCard :=
  dedupeBy (fun card => strip card.recordId) (cards.filter fun card => strip card.recordId ≠ "")

def midSessionRecallInterval : ℕ := 3

/-- `_should_recall_mid_session_memory`: `prior` is the recall state in the manifest of the
session's latest pack. -/
def shouldRecallMidSessionMemory (recallState : MidSessionRecallSnapshot) (prior : Option MidSessionRecallSnapshot) : Bool :=
  if recallState.turnIndex = 0 then false
  else if recallState.turnIndex % midSessionRecallInterval = 0 then true
  else
    match prior with
    | none => false
    | some prior =>
      prior.intentStates ≠ recallState.intentStates || prior.planCursor ≠ recallState.planCursor ||
        prior.planStepIds ≠ recallState.planStepIds || prior.activeSkillId ≠ recallState.activeSkillId ||
        prior.resolvedSkillIds ≠ recallState.resolvedSkillIds || prior.recentToolFamilies ≠ recallState.recentToolFamilies

def skillRefsOf (c : BuildConstraints) : List SkillSnippetRef :=
  match c.skillRefs, c.skillId with
  | [], some skillId => if skillId = "" then [] else [⟨skillId, c.skillVersionHash⟩]
  | refs, _ => refs

def resolveSkillSnippet (clients : Clients) (asked : Asked) (skillsTokens : ℕ) : Option String × Option String :=
  let refs := skillRefsOf asked.constraints
  let parts := match clients.renderSnippet with
    | none => []
    | some render =>
      let budget := max 80 (skillsTokens / refs.length)
      (refs.filterMap fun ref => render ref asked.purpose budget asked.modeName).filter fun text => strip text ≠ ""
  if parts = [] then (none, asked.constraints.skillId)
  else (some ("\n\n".intercalate parts), some ("+".intercalate (refs.map SkillSnippetRef.skillId)))

structure Materials where
  factRecords : List FactRecord
  memoryCards : List MemoryCard
  recentSessionArtifactRefs : List RecentSessionArtifactRef
  procedure : Option ProcedureSnippet
  skillSnippetText : Option String
  skillSegmentId : Option String
  artifactDigests : List ArtifactDigest

/-- `collect_retrieved_context_materials`, where `recalls` is what
`_should_recall_mid_session_memory` says. -/
def collectMaterials (clients : Clients) (asked : Asked) (turnIndex skillsTokens : ℕ) (recallState : MidSessionRecallSnapshot)
    (recalls : Bool) : Materials :=
  let queries := retrievalQueries asked
  let facts := queries.map fun query => clients.queryFacts asked.sessionId asked.agentId query 20 asked.modeName
  let memory := queries.map fun query => clients.queryMemoryCards asked.sessionId asked.agentId query 15 asked.modeName
  let digests := queries.map fun query => clients.queryDigests asked.sessionId asked.agentId query 10
  let atStart := if turnIndex = 0
    then clients.recallSessionStartMemory asked.sessionId asked.agentId asked.query turnIndex 6 asked.modeName else []
  let artifacts := if turnIndex = 0
    then clients.recallRecentSessionArtifacts asked.sessionId asked.agentId 6 14 asked.modeName else []
  let midSession := if recalls then clients.recallMidSessionMemory asked.sessionId asked.agentId recallState 4 asked.modeName else []
  let recalled := dedupeMemoryCards (atStart ++ midSession)
  let cards := mergeQueryResults MemoryCard.recordId 15 memory
  let (skillSnippetText, skillSegmentId) := resolveSkillSnippet clients asked skillsTokens
  { factRecords := mergeQueryResults FactRecord.recordId 20 facts
    memoryCards := if recalled = [] then cards else dedupeMemoryCards (recalled ++ cards)
    recentSessionArtifactRefs := artifacts
    procedure := asked.constraints.procedureId.bind fun id => if id = "" then none else clients.getProcedure id
    skillSnippetText, skillSegmentId
    artifactDigests := mergeQueryResults ArtifactDigest.ref 10 digests }

structure ContextSegment where
  id : String
  bucket : String
  content : String
  role : String := "system"
  refs : List String := []
  isArtifactPreview : Bool := false
  pinned : Bool := false
  deriving DecidableEq

/-- Segments, and for each bucket the number of candidates and of those dropped. -/
structure Produced where
  segments : List ContextSegment := []
  bucketStats : List (String × ℕ × ℕ) := []
  deriving DecidableEq

def Produced.append (a b : Produced) : Produced := ⟨a.segments ++ b.segments, a.bucketStats ++ b.bucketStats⟩

/-- The renderers of the sections and the producers of the other segments, each with what it
reads. -/
structure Renderers where
  buildPromptToolSchemas : (query : String) → (toolSchemas : List Dict) → List Dict
  prefixBuild : (identityText : String) → BuildConstraints → (promptToolSchemas : List Dict) → (includeIdentity : Bool) → String
  toolInventoryLines : BuildConstraints → (promptToolSchemas : List Dict) → List String
  promptViewJson : Option Dict → Option String
  clarifyDigest : Option Dict → String
  taskHeader : Purpose → (query : String) → (phaseHints : Dict) → BuildConstraints → String
  phaseSections : Purpose → (phaseHints : Dict) → List String
  budgetTelemetryBlock : Dict → String
  selfAwarenessBlock : Dict → String
  taskDigest : Dict → String
  activePlan : TaskPlan → String
  trailerFeedback : Dict → String
  summarySegments : Asked → SessionSlice → ContextBudgets → Produced
  recentWindowSegments : Asked → SessionSlice → ContextBudgets → Produced
  retrievalSegments : Asked → SessionSlice → Materials → ContextBudgets → Produced
  evidenceAndTurnInputSegments : Asked → SessionSlice → Materials → ContextBudgets → Produced
  memoryBlockSegments : (sessionId agentId : String) → (memoryTokens : ℕ) → Produced
  trimSegments : (totalCap : ℕ) → (bucketCaps : List (String × ℕ)) → Produced → List ContextSegment
  evidencePriorityOrdering : List ArtifactDigest → List ContextSegment → List ContextSegment
  recallState : SessionSlice → (turnIndex : ℕ) → MidSessionRecallSnapshot

section Assembly

variable (r : Renderers)

def modeContextLines (asked : Asked) (promptTools : List Dict) : List String :=
  let inventory := r.toolInventoryLines asked.constraints promptTools
  match normalizeModeName asked.modeName with
  | none => []
  | some .respond =>
    ["respond mode: favor concise summaries and recent factual context. " ++
      "If the session already contains a recent greeting exchange, continue the " ++
      "conversation instead of restarting it with the same opener."]
  | some .plan =>
    "plan mode: preserve constraints, procedures, and available tools." :: (inventory.take 12).map ("- " ++ ·)
  | some .act => "act mode: keep tactical context for the current execution loop." :: (inventory.take 8).map ("- " ++ ·)

def gatewayBlock (budgets : ContextBudgets) (gateway : String) : String :=
  if gateway = "" then "" else fitToBudget gateway (max 8 budgets.instructionsTokens)

def responseInstructions (c : BuildConstraints) : String :=
  "\n".intercalate (["Respond directly and stay within requested purpose.",
    "Do not invent unavailable facts; cite uncertainty when needed."] ++
    if c.outputSchema.getD [] = [] then [] else ["Follow output schema strictly."])

def activeStateMaxChars : ℕ := 2000

def stateLines (slice : SessionSlice) : List String :=
  ((r.promptViewJson slice.activeState).map fun view =>
    "Active state: " ++ String.ofList (view.toList.take activeStateMaxChars)).toList ++
    slice.openTasks.map ("Task: " ++ ·)

def titled (title text : String) : String := if strip text = "" then "" else title ++ "\n" ++ text

def missionContent (asked : Asked) (promptTools : List Dict) (slice : SessionSlice) (gateway : String)
    (budgets : ContextBudgets) : String :=
  let digest := r.clarifyDigest slice.activeState
  let clarify := if digest = "" then "" else fitToBudget digest (max 8 (budgets.instructionsTokens / 2))
  let modeLines := modeContextLines r asked promptTools
  let sections :=
    [ if modeLines = [] then "" else "[MODE CONTEXT]\n" ++ "\n".intercalate modeLines,
      titled "[GATEWAY MEMORY CONTEXT]" (gatewayBlock budgets gateway),
      titled "[CLARIFY DIGEST]" clarify,
      "[TASK HEADER]\n" ++ r.taskHeader asked.purpose asked.query asked.phaseHints asked.constraints ] ++
    r.phaseSections asked.purpose asked.phaseHints ++
    [ "\n".intercalate (stateLines r slice),
      titled "[CONSTRAINTS & POLICY]" (fitToBudget (responseInstructions asked.constraints) budgets.instructionsTokens) ]
  "\n\n".intercalate (sections.filter fun text => text ≠ "")

def pinnedBlock (bucket content : String) : Produced :=
  ⟨[{ id := bucket, bucket, content, pinned := true }], [(bucket, 1, 0)]⟩

/-- `_append_optional_block`. -/
def optionalBlock (bucket content : String) : Produced :=
  if strip content = "" then ⟨[], [(bucket, 0, 0)]⟩ else pinnedBlock bucket content

/-- A block that only `decide` has, within its own budget. -/
def decideBlock (purpose : Purpose) (bucket title : String) (text : Option String) (cap : ℕ) : Produced :=
  match text with
  | some text =>
    if purpose = .decide ∧ 0 < cap then optionalBlock bucket (titled title (fitToBudget text cap)) else optionalBlock bucket ""
  | none => optionalBlock bucket ""

def prefixAndMissionSegments (asked : Asked) (promptTools : List Dict) (identityText : String) (slice : SessionSlice)
    (gateway : String) (awareness : Dict) (budgets : ContextBudgets) : Produced :=
  let identityBlock := if asked.includeIdentity then fitToBudget identityText budgets.identityTokens else ""
  let plan := slice.activeTaskPlan.filter fun plan => plan.status = "active"
  let awarenessBlock := if awareness = [] then "" else r.selfAwarenessBlock awareness
  [ pinnedBlock "static_prefix" (r.prefixBuild identityBlock asked.constraints promptTools asked.includeIdentity),
    pinnedBlock "mission_snapshot" (missionContent r asked promptTools slice gateway budgets),
    optionalBlock "budget_telemetry" (if asked.budgetTelemetry = [] then "" else r.budgetTelemetryBlock asked.budgetTelemetry),
    optionalBlock "self_awareness" (if strip awarenessBlock = "" then ""
      else fitToBudget awarenessBlock (max 32 (max 64 (budgets.totalMaxTokens / 20)))),
    decideBlock asked.purpose "task_digest" "[TASK DIGEST]" ((slice.taskDigest.filter (· ≠ [])).map r.taskDigest)
      budgets.taskDigestTokens,
    decideBlock asked.purpose "active_plan" "[ACTIVE PLAN]" (plan.map r.activePlan) budgets.activePlanTokens,
    decideBlock asked.purpose "trailer_feedback" "[TRAILER FEEDBACK]"
      ((slice.pendingTrailerFeedback.filter (· ≠ [])).map r.trailerFeedback) budgets.trailerFeedbackTokens ].foldl Produced.append {}

def assembleSegments (asked : Asked) (promptTools : List Dict) (identityText : String) (slice : SessionSlice)
    (gateway : String) (awareness : Dict) (materials : Materials) (budgets : ContextBudgets) : Produced :=
  [ prefixAndMissionSegments r asked promptTools identityText slice gateway awareness budgets,
    r.summarySegments asked slice budgets,
    r.recentWindowSegments asked slice budgets,
    r.retrievalSegments asked slice materials budgets,
    r.evidenceAndTurnInputSegments asked slice materials budgets ].foldl Produced.append {}

def injectMemoryBlockSegments (blocks : Produced) (p : Produced) : Produced :=
  let (before, rest) := p.segments.span fun segment => segment.bucket ≠ "turn_input"
  ⟨before ++ blocks.segments ++ rest, p.bucketStats ++ blocks.bucketStats⟩

/-- `assert_layout_discipline`: nothing but blank segments after the turn input. -/
def layoutDisciplined (segments : List ContextSegment) : Bool :=
  (segments.dropWhile fun segment => segment.bucket ≠ "turn_input").all fun segment =>
    segment.bucket = "turn_input" || strip segment.content = ""

end Assembly

structure IdentitySnippet where
  text : String
  profileVersion : String
  deriving DecidableEq

/-- What a service is constructed with. `Answers` is what the identity, compression, RLM, vector and plugin clients
and the store of memory blocks, with the clock that it reads, return while one pack is built. -/
structure Collaborators (Answers Digest : Type) where
  clients : Clients
  renderers : Answers → Renderers
  renderIdentity : Answers → (agentId : String) → Purpose → (maxTokens : ℕ) → (providerPref : Option String) → (query : String) →
    IdentitySnippet
  applyIdentityBudget : IdentitySnippet → (capTokens : ℕ) → String
  /-- The hexadecimal SHA-256 digest of a text. -/
  digest : List Char → Digest

inductive PackError where
  | identityMissing
  | layoutDiscipline
  deriving DecidableEq

structure ContextPack where
  segments : List ContextSegment
  midSessionRecallState : MidSessionRecallSnapshot
  deriving DecidableEq

section Build

variable {Answers Digest : Type} (c : Collaborators Answers Digest) (answers : Answers)

def budgetsOf (asked : Asked) (override : Option BudgetsOverride) (slice : SessionSlice) : ContextBudgets :=
  applyContextBudgetTierBias (applyModeBudgetBias (resolveBudgets asked.purpose override slice.turnIndex) asked.modeName)
    asked.constraints.contextBudgetTier

def identityOf (asked : Asked) (providerPref : Option String) (budgets : ContextBudgets) : IdentitySnippet :=
  c.renderIdentity answers asked.agentId asked.purpose budgets.identityTokens providerPref asked.query

def recallStateOf (slice : SessionSlice) : MidSessionRecallSnapshot := (c.renderers answers).recallState slice slice.turnIndex

def assemblePack (asked : Asked) (providerPref : Option String) (override : Option BudgetsOverride) (gateway : String)
    (awareness : Dict) (slice : SessionSlice) (recalls : Bool) : Except PackError ContextPack :=
  let renderers := c.renderers answers
  let budgets := budgetsOf asked override slice
  let promptTools := renderers.buildPromptToolSchemas asked.query asked.constraints.toolSchemas
  let identityText := c.applyIdentityBudget (identityOf c answers asked providerPref budgets) (max 1 budgets.identityTokens)
  let recallState := recallStateOf c answers slice
  let materials := collectMaterials c.clients asked slice.turnIndex budgets.skillsTokens recallState recalls
  let assembled := assembleSegments renderers asked promptTools identityText slice gateway awareness materials budgets
  let blocks := renderers.memoryBlockSegments asked.sessionId asked.agentId budgets.memoryTokens
  let trimmed := renderers.trimSegments budgets.totalMaxTokens (bucketCapsFor budgets) (injectMemoryBlockSegments blocks assembled)
  let segments := renderers.evidencePriorityOrdering materials.artifactDigests trimmed
  if layoutDisciplined segments then .ok { segments, midSessionRecallState := recallState } else .error .layoutDiscipline

/-- What a pack is built from: the slice has the request's overlay on it, and `prior` is the
recall state of the session's latest pack. -/
structure PackInputs (Answers : Type) where
  request : BuildPackRequest
  slice : SessionSlice
  prior : Option MidSessionRecallSnapshot
  answers : Answers

def PackInputs.recalls (i : PackInputs Answers) : Bool := shouldRecallMidSessionMemory (recallStateOf c i.answers i.slice.shown) i.prior

def buildFrom (i : PackInputs Answers) : Except PackError ContextPack :=
  assemblePack c i.answers i.request.asked i.request.providerPref i.request.budgetsOverride (strip i.request.gatewaySystemContext)
    i.request.selfAwareness i.slice.shown (i.recalls c)

end Build

end OpenMinion.ContextPackBuild
