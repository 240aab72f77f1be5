import Mathlib.Data.List.Infix
import OpenMinion.JsonValues
import OpenMinion.KeyedTables
import OpenMinion.PythonText

/-!
# Compression tiers

Each strategy extracts entries of its tiers from events and abstracts the old and the new entries of a tier within a
token budget. One that needs a text fails on another value as Python does.
-/
namespace OpenMinion.CompressionTiers
open JsonValues KeyedTables PythonText

/-- `str.split()`. -/
def words (text : String) : List String :=
  ((text.toList.splitOnP isSpace).filter fun word => word ≠ []).map String.ofList

def countTokens (text : String) : ℕ := (words text).length

/-- `" ".join(..)`. -/
def joinWords (texts : List String) : String := " ".intercalate texts

structure DeltaEvent where
  eventId : String
  eventType : String
  payload : Dict := []
  text : Option String := none
  refs : List String := []
  metadata : Dict := []
  deriving DecidableEq

inductive TierType where
  | summary
  | decisions
  | constraints
  | openLoops
  | entities
  | toolDigests
  | failures
  deriving DecidableEq

structure TierEntry where
  tierType : TierType
  text : String
  refs : List String := []
  metadata : Dict := []
  tokenCount : ℕ := 0
  deriving DecidableEq

inductive ExtractError where
  | attributeError
  | typeError
  deriving DecidableEq

structure Runtime where
  /-- `str(value)` of a value that is not a string. -/
  reprOf : Json → String
  /-- `str.lower`. -/
  lower : String → String
  /-- `json.dumps`. -/
  dumps : Json → String

/-- `d.get(key, default)`. -/
def getOr (d : Dict) (key : String) (default : Json) : Json := if Dict.has d key then Dict.get d key else default

/-- `a or b`. -/
def orElse (a b : Json) : Json := if a.truthy then a else b

def asText : Json → Except ExtractError String
  | .str text => .ok text
  | _ => .error .attributeError

def textJson (text : Option String) : Json := (text.map Json.str).getD .null

def isToolResult (e : DeltaEvent) : Bool := e.eventType = "tool.completed" || e.eventType = "tool.result"

section Extract

variable (rt : Runtime)

def pyStr : Json → String
  | .str s => s
  | v => rt.reprOf v

/-- `distill_tool_output`, its summary. -/
def distilledSummary (raw : String) : String :=
  let ws := words raw
  joinWords (ws.take 100) ++ if 100 < ws.length then "..." else ""

def excludeRawToolOutput (e : DeltaEvent) : Except ExtractError DeltaEvent := do
  if isToolResult e then
    let raw ← asText (orElse (textJson e.text) (getOr e.payload "output" (.str "")))
    let summary := distilledSummary raw
    let digest : Dict :=
      [ ("tool_name", getOr e.payload "tool_name" (.str "unknown")), ("distilled_summary", .str summary),
        ("evidence_refs", .list (e.refs.map Json.str)), ("verified", .bool false), ("source", .str "extractive") ]
    let payload := digest.foldl (fun d item => Dict.set d item.1 item.2) e.payload
    return { e with payload := payload.filter fun item => item.1 ≠ "output" && item.1 ≠ "raw_output", text := some summary }
  else return e

def summaryEntries (events : List DeltaEvent) : List TierEntry :=
  let texts := events.filterMap fun e =>
    if e.eventType = "turn.user" || e.eventType = "turn.assistant" || e.eventType = "turn.completed"
    then e.text.filter (· ≠ "") else none
  if texts = [] then []
  else
    let tokens := (words (joinWords texts)).take 400
    [{ tierType := .summary, text := joinWords tokens, tokenCount := tokens.length }]

def textEntry (tierType : TierType) (value : Json) (refs : List String) (metadata : Dict) :
    Except ExtractError (List TierEntry) := do
  if value.truthy then
    let text ← asText value
    return [{ tierType, text, refs, metadata, tokenCount := countTokens text }]
  else return []

def decisionEntries (e : DeltaEvent) : Except ExtractError (List TierEntry) := do
  let p := e.payload
  let decided ← if e.eventType = "decision.made" || Dict.has p "decision"
    then textEntry .decisions (orElse (Dict.get p "decision_text") (orElse (Dict.get p "decision") (textJson e.text))) e.refs []
    else pure []
  let constrained ← if e.eventType = "constraint.set" || Dict.has p "constraint"
    then textEntry .constraints (orElse (Dict.get p "constraint_text") (Dict.get p "constraint")) e.refs []
    else pure []
  return decided ++ constrained

/-- Iteration over `entities`: a text gives its characters and a dictionary its keys. -/
def entityTexts (value : Json) : Except ExtractError (List String) :=
  if value.truthy then
    match value with
    | .list items => .ok (items.map (pyStr rt))
    | .str text => .ok (text.toList.map fun c => String.ofList [c])
    | .dict items => .ok (items.map Prod.fst)
    | _ => .error .typeError
  else .ok []

def entityEntries (e : DeltaEvent) : Except ExtractError (List TierEntry) := do
  let texts ← entityTexts rt (Dict.get e.payload "entities")
  return texts.map fun text => { tierType := .entities, text, refs := e.refs, tokenCount := countTokens text }

def toolDigestEntries (e : DeltaEvent) : Except ExtractError (List TierEntry) := do
  if isToolResult e then
    let toolName := getOr e.payload "tool_name" (.str "unknown")
    let given := orElse (Dict.get e.payload "summary") (orElse (Dict.get e.payload "distilled_summary") (.str ""))
    let summary := if given.truthy then given else .str (joinWords ((words (e.text.getD "")).take 100))
    if summary.truthy then
      let text ← asText summary
      return [
        { tierType := .toolDigests
          text := "[" ++ pyStr rt toolName ++ "] " ++ text
          refs := e.refs
          metadata := [("tool_name", toolName), ("verified", getOr e.payload "verified" (.bool false))]
          tokenCount := countTokens text + 1 }]
    else return []
  else return []

def openLoopEntries (e : DeltaEvent) : Except ExtractError (List TierEntry) :=
  let p := e.payload
  if e.eventType = "open_loop.created" || e.eventType = "question.asked" || e.eventType = "todo.created" || Dict.has p "open_loop"
  then textEntry .openLoops
    (orElse (Dict.get p "question_or_todo") (orElse (Dict.get p "open_loop") (orElse (Dict.get p "question") (textJson e.text))))
    e.refs [("owner", Dict.get p "owner"), ("status", getOr p "status" (.str "open"))]
  else .ok []

def extractAll (events : List DeltaEvent) : Except ExtractError (List TierEntry) := do
  let decisions ← events.mapM decisionEntries
  let entities ← events.mapM (entityEntries rt)
  let digests ← events.mapM (toolDigestEntries rt)
  let loops ← events.mapM openLoopEntries
  return summaryEntries events ++ decisions.flatten ++ entities.flatten ++ digests.flatten ++ loops.flatten

end Extract

/-- `_trim_entries_to_budget` from the oldest entry: it stops at one that does not fit. -/
def trimOldest (budget : ℕ) : ℕ → List TierEntry → List TierEntry
  | _, [] => []
  | used, entry :: rest =>
    if budget < used + entry.tokenCount then [] else entry :: trimOldest budget (used + entry.tokenCount) rest

def trimNewest (budget : ℕ) : ℕ → List TierEntry → List TierEntry
  | _, [] => []
  | used, entry :: rest =>
    if budget < used + entry.tokenCount then trimNewest budget used rest
    else entry :: trimNewest budget (used + entry.tokenCount) rest

def abstractSummary (entries : List TierEntry) (budget : ℕ) : List TierEntry :=
  let tokens := words (joinWords ((entries.map TierEntry.text).filter fun text => text ≠ ""))
  [{ tierType := .summary, text := joinWords (tokens.take budget), tokenCount := min tokens.length budget }]

def latestByKey (key : TierEntry → String) (entries : List TierEntry) : List TierEntry :=
  entries.foldl (fun seen entry => upsertRow key entry seen) []

def isClosed (entry : TierEntry) : Bool :=
  let status := getOr entry.metadata "status" (.str "open")
  status = .str "closed" || status = .str "resolved"

def openByKey (entries : List TierEntry) : List TierEntry :=
  let key := fun entry : TierEntry => strip entry.text
  entries.foldl (fun seen entry =>
    if isClosed entry then deleteWhere (fun e => key e = key entry) seen else upsertRow key entry seen) []

/-- `strategy.abstract(existing, new, budget)` of the strategy that has the tier. -/
def abstractTier (rt : Runtime) (tierType : TierType) (entries : List TierEntry) (budget : ℕ) : List TierEntry :=
  match tierType with
  | .summary => abstractSummary entries budget
  | .decisions | .constraints => trimOldest budget 0 (latestByKey (fun entry => strip entry.text) entries)
  | .entities => trimOldest budget 0 (latestByKey (fun entry => rt.lower (strip entry.text)) entries)
  | .toolDigests => (trimNewest budget 0 entries.reverse).reverse
  | .openLoops => trimOldest budget 0 (openByKey entries)
  | .failures => entries

def registeredTiers : List TierType := [.summary, .decisions, .constraints, .entities, .toolDigests, .openLoops]

structure SeedBundleBudgets where
  totalMaxTokens : ℕ := 1200
  summaryMaxTokens : ℕ := 400
  decisionsMaxTokens : ℕ := 200
  constraintsMaxTokens : ℕ := 150
  entitiesMaxTokens : ℕ := 200
  openLoopsMaxTokens : ℕ := 100
  toolDigestsMaxTokens : ℕ := 150
  deriving DecidableEq

def SeedBundleBudgets.capForTier (b : SeedBundleBudgets) (tierType : TierType) : ℕ :=
  min b.totalMaxTokens (match tierType with
    | .summary => b.summaryMaxTokens
    | .decisions => b.decisionsMaxTokens
    | .constraints => b.constraintsMaxTokens
    | .entities => b.entitiesMaxTokens
    | .openLoops => b.openLoopsMaxTokens
    | .toolDigests => b.toolDigestsMaxTokens
    | .failures => 50)

def mergeTiers (rt : Runtime) (budgets : SeedBundleBudgets) (current new : List TierEntry) : List TierEntry :=
  (registeredTiers.flatMap fun tierType =>
    let entries := (current ++ new).filter fun entry => entry.tierType = tierType
    if entries = [] then [] else abstractTier rt tierType entries (budgets.capForTier tierType)) ++
  current.filter fun entry => !registeredTiers.contains entry.tierType

end OpenMinion.CompressionTiers
