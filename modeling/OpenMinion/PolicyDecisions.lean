import OpenMinion.PolicyTables
import OpenMinion.PythonText

/-!
# The policy service

`PolicyCtl` over the policy store: how it creates grants, and how `check` decides on an
invocation. What it takes from the library of Python and from the parser of previews is a
parameter.
-/
namespace OpenMinion.PolicyDecisions
open IsoTimestamps JsonValues KeyedTables PolicyTables PythonText

/-- The text that `hexdigest` gives for a SHA-256 digest. -/
structure Digest where
  text : String
  length_text : text.length = 64

/-- What `datetime.fromisoformat` makes of a text, with the instant in UTC. -/
inductive ParsedTime where
  | invalid
  | naive
  | outOfRange
  | aware (time : DateTime)

structure PolicyRuntime where
  /-- `str(value)`. -/
  str : Json → String
  /-- `text.lower()`. -/
  lower : String → String
  lower_ascii : ∀ text : String, (∀ c ∈ text.toList, c.toNat < 128) →
    lower text = String.ofList (text.toList.map Char.toLower)
  /-- SHA-256 of the JSON text of a tool, a method and arguments, with sorted keys. -/
  invocationDigest : String → String → Dict → Digest
  /-- `re.search(pattern, text)`. -/
  search : String → String → Except PolicyError Bool
  /-- `fnmatch.fnmatch(name, pattern)`. -/
  fnmatch : String → String → Bool
  /-- `urlparse(url).hostname`. -/
  hostname : String → Except PolicyError (Option String)
  /-- `str(Path(path).expanduser())`. -/
  expandUser : String → Except PolicyError String
  fromIsoFormat : String → ParsedTime
  /-- `_blockchain_preview_is_invalid`. -/
  previewIsInvalid : Dict → Except PolicyError Bool

/-- `part in text`. -/
def containsText (text part : String) : Bool := decide (part.toList <:+: text.toList)

/-- `text.startswith(start)`. -/
def startsWith (text start : String) : Bool := start.toList.isPrefixOf text.toList

def isTruthy (text : Option String) : Bool := text.any fun t => t ≠ ""

/-- `text.rsplit(".", 1)`, if there is a dot. -/
def rsplitDot (text : String) : Option (String × String) :=
  match text.toList.reverse.span fun c => c ≠ '.' with
  | (right, _ :: left) => some (String.ofList left.reverse, String.ofList right.reverse)
  | (_, []) => none

/-- `POLICY_RISK_ORDER`. -/
def riskOrder : RiskClass → ℕ
  | .read => 0
  | .write => 1
  | .stateChange => 2
  | .exec => 3
  | .security => 4
  | .financial => 5
  | .destructive => 6

def riskText : RiskClass → String
  | .read => "read"
  | .write => "write"
  | .exec => "exec"
  | .stateChange => "state_change"
  | .destructive => "destructive"
  | .financial => "financial"
  | .security => "security"

def sideEffectsText : SideEffects → String
  | .none => "none"
  | .locally => "local"
  | .remote => "remote"
  | .externalAccount => "external_account"

def reversibilityText : Reversibility → String
  | .reversible => "reversible"
  | .partiallyReversible => "partially_reversible"
  | .irreversible => "irreversible"
  | .unknown => "unknown"

def durationText : DurationType → String
  | .once => "once"
  | .untilTime => "until"
  | .session => "session"
  | .forever => "forever"

inductive SensitiveTarget where
  | text (part : String)
  | target (fields : Dict)

structure RiskSpec where
  riskClass : RiskClass
  sideEffects : SideEffects := .none
  reversibility : Reversibility := .unknown
  defaultConfirm : Bool := false
  sensitiveTargets : List SensitiveTarget := []

inductive RuleMode where
  | auto
  | ask
  | block
  deriving DecidableEq

structure PolicyRule where
  toolName : String
  minRiskClass : Option RiskClass := none
  mode : RuleMode := .ask

inductive DefaultAction where
  | allow
  | requireConfirm
  deriving DecidableEq

structure PolicyConfig where
  mode : PolicyMode := .enforce
  defaultAction : DefaultAction := .requireConfirm
  sandboxPathPrefixes : List String := ["/sandbox", "./sandbox"]
  allowReadOnlyWithoutPrompt : Bool := true
  rules : List PolicyRule := []
  subjectIdDefault : String := "local"

structure PolicyCtl where
  config : PolicyConfig := {}
  riskRegistry : List (String × RiskSpec) := []

/-- An invocation as the caller gives it, a dictionary or an object with these attributes. -/
structure Invocation where
  isMapping : Bool := true
  tool : String
  method : String := ""
  args : Json := .dict []
  invocationId : String := ""

structure InvocationSummary where
  invocationId : String
  tool : String
  method : String
  args : Dict
  invocationHash : String

structure ContextSummary where
  traceId : Option String := none
  sessionId : Option String := none
  subjectId : Option String := none
  modeName : Option String := none

section Service

variable (rt : PolicyRuntime)

def stableInvocationHash (tool method : String) (args : Dict) : String :=
  (rt.invocationDigest tool method (args.filter fun item => !startsWith item.1 "_")).text

def normalizeInvocation (invocation : Invocation) : Except PolicyError InvocationSummary :=
  let tool := strip invocation.tool
  let method := strip invocation.method
  let args := if invocation.isMapping || invocation.args.truthy then invocation.args else .dict []
  let invocationId := if strip invocation.invocationId = "" then "invocation-local" else strip invocation.invocationId
  let (tool, method) := if method = "" then (rsplitDot tool).getD (tool, method) else (tool, method)
  if tool = "" then .error (.value "invocation.tool is required")
  else if method = "" then .error (.value "invocation.method is required")
  else match args with
    | .dict args => .ok ⟨invocationId, tool, method, args, stableInvocationHash rt tool method args⟩
    | _ => .error (.value "invocation.args must be a dict")

def normalizeContext (ctx : ContextSummary) : ContextSummary :=
  ⟨stripOrNone ctx.traceId, stripOrNone ctx.sessionId, stripOrNone ctx.subjectId, stripOrNone ctx.modeName⟩

def optStr : Json → Option String
  | .null => none
  | value => if strip (rt.str value) = "" then none else some (strip (rt.str value))

def argPath (args : Dict) : Option String :=
  (optStr rt (Dict.get args "path")).or (optStr rt (Dict.get args "root"))

def argCommand (args : Dict) : Option String :=
  match Dict.get args "argv" with
  | .list items => stripOrNone (some (" ".intercalate (items.map rt.str)))
  | _ => optStr rt (Dict.get args "command")

def argDomain (args : Dict) : Except PolicyError (Option String) :=
  match optStr rt (Dict.get args "domain") with
  | some domain => .ok (some domain)
  | none =>
    match Dict.get args "url" with
    | .str url => (rt.hostname url).map stripOrNone
    | _ => .ok none

/-- What `_target_facts` finds in the arguments. -/
structure TargetFacts where
  path : Option String
  command : Option String
  host : Option String
  domain : Option String
  namespaceName : Option String
  cluster : Option String
  resource : Option String

def targetFacts (args : Dict) : Except PolicyError TargetFacts :=
  let present (key : String) : Option String :=
    if Dict.has args key then some (rt.str (Dict.get args key)) else none
  (argDomain rt args).map fun domain =>
    ⟨argPath rt args, argCommand rt args, present "host", domain, present "namespace", present "cluster",
      present "resource"⟩

/-- `_values` of `_target_matches`. -/
def targetValues (target : Dict) (key : String) : List String :=
  match Dict.get target key with
  | .null => []
  | .list items => (items.map rt.str).filter fun text => strip text ≠ ""
  | value => [rt.str value]

def targetItems (target : Dict) (key : String) : Dict :=
  match Dict.get target key with
  | .dict items => items
  | _ => []

def targetMatches (target : Dict) (facts : TargetFacts) (args : Dict) : Except PolicyError Bool := do
  let values := targetValues rt target
  if target.isEmpty then return true
  if !(values "path_prefix").all fun start => startsWith (facts.path.getD "") start then return false
  if !(values "cmd_prefix").all fun start => startsWith (facts.command.getD "") start then return false
  if !(← (values "cmd_regex").allM fun pattern => rt.search pattern (facts.command.getD "")) then return false
  if !(values "host").all fun pattern => rt.fnmatch (facts.host.getD "") pattern then return false
  if !(values "domain").all fun pattern => rt.fnmatch (facts.domain.getD "") pattern then return false
  if !(values "namespace").all fun name => facts.namespaceName.getD "" = name then return false
  if !(values "cluster").all fun name => facts.cluster.getD "" = name then return false
  if !(values "resource").all fun name => facts.resource.getD "" = name then return false
  if !(targetItems target "arg_equals").all fun item => (Dict.get args item.1).pyEq item.2 then return false
  return (targetItems target "arg_contains").all fun item =>
    let text := match Dict.get args item.1 with
      | .list items => " ".intercalate (items.map rt.str)
      | value => rt.str value
    containsText text (rt.str item.2)

def matchesSensitiveTarget (inv : InvocationSummary) (risk : RiskSpec) : Except PolicyError Bool :=
  if risk.sensitiveTargets.isEmpty then .ok false
  else do
    let facts ← targetFacts rt inv.args
    let blob := " ".intercalate
      [facts.path.getD "", facts.command.getD "", facts.host.getD "", facts.domain.getD ""]
    risk.sensitiveTargets.anyM fun matcher =>
      match matcher with
      | .text part => .ok (part ≠ "" && containsText blob part)
      | .target fields => targetMatches rt fields facts inv.args

def inferRisk (inv : InvocationSummary) : RiskSpec :=
  let method := rt.lower inv.method
  let tool := rt.lower inv.tool
  let text := tool ++ "." ++ method
  if ["read", "list", "show", "get", "status", "which", "snapshot", "tail"].any (containsText method) then
    { riskClass := .read, reversibility := .reversible }
  else if ["delete", "remove", "rm", "drop", "destroy", "wipe", "kill"].any (containsText text) then
    { riskClass := .destructive, sideEffects := .locally, reversibility := .irreversible, defaultConfirm := true }
  else if ["pay", "buy", "transfer", "charge"].any (containsText text) then
    { riskClass := .financial, sideEffects := .externalAccount, defaultConfirm := true }
  else if ["exec", "run", "ssh", "shell"].any (containsText text) then
    { riskClass := .exec, sideEffects := if containsText text "ssh" then .remote else .locally, defaultConfirm := true }
  else if ["click", "submit", "apply", "start", "stop", "restart", "write", "update"].any (containsText text) then
    { riskClass := .stateChange, sideEffects := if containsText tool "browser" then .externalAccount else .locally,
      reversibility := .partiallyReversible, defaultConfirm := true }
  else if Dict.has inv.args "path" || Dict.has inv.args "content" then
    { riskClass := .write, sideEffects := .locally, reversibility := .partiallyReversible, defaultConfirm := true }
  else { riskClass := .read }

def resolveRisk (ctl : PolicyCtl) (inv : InvocationSummary) : RiskSpec :=
  let keys := [inv.tool ++ "." ++ inv.method, inv.tool ++ ".*", "*." ++ inv.method, "*.*"]
  (keys.findSome? fun key => ctl.riskRegistry.lookup key).getD (inferRisk rt inv)

def mergePolicyRisk (registered : RiskSpec) : Option RiskSpec → RiskSpec
  | none => registered
  | some command =>
    if riskOrder command.riskClass ≤ riskOrder registered.riskClass then registered
    else { registered with riskClass := command.riskClass }

def rulePriority : RuleMode → ℕ
  | .auto => 0
  | .ask => 1
  | .block => 2

def selectPolicyRule (inv : InvocationSummary) (risk : RiskSpec) (config : PolicyConfig) : Option PolicyRule :=
  let toolName := if inv.method = "default" then inv.tool else inv.tool ++ "." ++ inv.method
  (config.rules.filter fun rule => rule.toolName = toolName &&
    rule.minRiskClass.all fun floor => riskOrder floor ≤ riskOrder risk.riskClass).argmax fun rule =>
      rulePriority rule.mode

inductive DecisionType where
  | allow
  | deny
  | requireConfirm
  deriving DecidableEq

structure PolicyDecision where
  decision : DecisionType
  reasonCode : String
  reason : String
  risk : RiskSpec
  matchedGrantId : Option String := none
  confirmRequest : Option Dict := none
  details : Dict := []
  approvalId : Option String := none
  invocationHash : Option String := none
  confirmationPreview : Option Dict := none

def blockedRuleDecision (rule : Option PolicyRule) (risk : RiskSpec) : Option PolicyDecision :=
  match rule with
  | none => none
  | some rule =>
    if rule.mode ≠ .block then none
    else some { decision := .deny, reasonCode := "CONFIG_RULE_BLOCK", reason := "Denied by configured exact-tool rule",
                risk := risk, details := [("rule_mode", .str "block"), ("tool_name", .str rule.toolName)] }

def requiresOnceDuration (tool method : String) (riskFloor : Option RiskClass) : Bool :=
  let tool := rt.lower (strip tool)
  let method := rt.lower (strip method)
  tool = "financial" || isPolicyAuthorizationPair tool method || (tool = "ops.command" && method = "run") ||
    (tool = "project" && method = "start") || riskFloor = some .financial

structure GrantMatch where
  grant : PolicyGrant
  score : ℕ

def grantSpecificityScore (g : PolicyGrant) : ℕ :=
  (if g.tool ≠ "*" then 8 else 0) + (if g.method ≠ "*" then 6 else 0) +
    (if g.targetJson.isEmpty then 0 else 4 + g.targetJson.length) + (if g.riskFloor.isSome then 1 else 0)

def selectGrantMatch (candidates : List GrantMatch) : Option GrantMatch :=
  match (candidates.map GrantMatch.score).max? with
  | none => none
  | some best =>
    let same := candidates.filter fun m => m.score = best
    let deny := same.filter fun m => m.grant.effect = .deny
    (if deny.isEmpty then same else deny).argmax fun m => m.grant.createdAt

/-- `_grant_matches`; the clock is read when the grant has an expiry. -/
def grantMatches (g : PolicyGrant) (inv : InvocationSummary) (ctx : ContextSummary) (risk : RiskSpec)
    (facts : TargetFacts) (now : DateTime) : Except PolicyError Bool :=
  if g.revokedAt.isSome then .ok false
  else if !unexpiredAt (toIsoUtc now) g then .ok false
  else if !hasUsesLeft g then .ok false
  else if g.durationType = .session && !isTruthy g.sessionId then .ok false
  else if isTruthy g.sessionId && g.sessionId ≠ ctx.sessionId then .ok false
  else if isTruthy g.invocationHash && g.invocationHash ≠ some inv.invocationHash then .ok false
  else if g.tool ≠ "*" && g.tool ≠ inv.tool then .ok false
  else if g.method ≠ "*" && g.method ≠ inv.method then .ok false
  else if g.riskFloor.any fun floor => riskOrder risk.riskClass < riskOrder floor then .ok false
  else targetMatches rt g.targetJson facts inv.args

def findMatchingGrants (grants : List PolicyGrant) (inv : InvocationSummary) (ctx : ContextSummary) (risk : RiskSpec)
    (matchAt : PolicyGrant → DateTime) : Except PolicyError (List GrantMatch) := do
  let facts ← targetFacts rt inv.args
  grants.foldlM (fun matched g => (grantMatches rt g inv ctx risk facts (matchAt g)).map fun isMatch =>
    if isMatch then matched ++ [⟨g, grantSpecificityScore g⟩] else matched) []

/-- The matches that count for the invocation: a family of one-time actions takes no
reusable allow, and an authorization pair only grants with an approval id. -/
def relevantMatches (candidates : List GrantMatch) (inv : InvocationSummary) (risk : RiskSpec) : List GrantMatch :=
  let candidates := if requiresOnceDuration rt inv.tool inv.method (some risk.riskClass) then
      candidates.filter fun m => m.grant.effect = .deny || m.grant.durationType = .once
    else candidates
  if isPolicyAuthorizationPair inv.tool inv.method then candidates.filter fun m => isTruthy m.grant.approvalId
  else candidates

def matchingGrantDecision (s : PolicyStore) (candidates : List GrantMatch) (inv : InvocationSummary) (risk : RiskSpec)
    (consumeGrants : Bool) (useAt : DateTime) : Option PolicyDecision × PolicyStore :=
  match selectGrantMatch (relevantMatches rt candidates inv risk) with
  | none => (none, s)
  | some selected =>
    let g := selected.grant
    let allowed : PolicyDecision :=
      { decision := .allow, reasonCode := "EXPLICIT_ALLOW", reason := "Allowed by explicit grant", risk := risk,
        matchedGrantId := some g.grantId, approvalId := g.approvalId, invocationHash := some inv.invocationHash,
        details := [("grant_id", .str g.grantId)] }
    if g.effect = .deny then
      (some { decision := .deny, reasonCode := "EXPLICIT_DENY", reason := "Denied by explicit grant rule", risk := risk,
              matchedGrantId := some g.grantId, details := [("grant_id", .str g.grantId)] }, s)
    else if isExactOpsCommand inv.tool inv.method then (none, s)
    else if consumeGrants && !isPolicyAuthorizationPair inv.tool inv.method then
      let (used, s) := consumeGrantUse s g.grantId useAt
      (used.map fun _ => allowed, s)
    else (some allowed, s)

def defaultTargetScope (inv : InvocationSummary) : Except PolicyError Dict := do
  let domain ← argDomain rt inv.args
  let first : Option String :=
    match Dict.get inv.args "argv" with
    | .list (item :: _) => if strip (rt.str item) = "" then none else some (strip (rt.str item))
    | _ => none
  let host := if Dict.has inv.args "host" then some (rt.str (Dict.get inv.args "host")) else none
  let fields := [("path_prefix", argPath rt inv.args), ("cmd_prefix", first), ("host", host), ("domain", domain)]
  return fields.filterMap fun field => field.2.map fun text => (field.1, .str text)

def sanitizeArgs (args : Dict) : Dict :=
  args.map fun item =>
    let hidden := ["token", "secret", "password", "key", "authorization"].any (containsText (rt.lower item.1))
    (item.1, if hidden then .str "[REDACTED]" else match item.2 with
      | .list items => .dict [("_type", .str "array"), ("size", .int items.length)]
      | .dict items => .dict [("_type", .str "object"), ("size", .int items.length)]
      | value => value)

def optionalText : Option String → Json
  | none => .null
  | some text => .str text

def buildConfirmRequest (inv : InvocationSummary) (ctx : ContextSummary) (risk : RiskSpec) (targetScope : Dict) : Dict :=
  let inScope (fields : Dict) : Json := .dict ([("tool", Json.str inv.tool), ("method", Json.str inv.method)] ++ fields)
  let choice (action label : String) (fields : Dict) : Json :=
    .dict ([("action", Json.str action), ("label", Json.str label)] ++ fields)
  [("trace_id", optionalText ctx.traceId),
    ("invocation_id", .str inv.invocationId),
    ("summary", inScope [("args", .dict (sanitizeArgs rt inv.args))]),
    ("risk", .dict [("risk_class", .str (riskText risk.riskClass)),
      ("side_effects", .str (sideEffectsText risk.sideEffects)),
      ("reversibility", .str (reversibilityText risk.reversibility))]),
    ("suggested_choices", .list [choice "allow_once" "Allow once" [],
      choice "allow_until" "Allow for 10 minutes" [("until_seconds", .int 600)],
      choice "allow_session" "Allow for this session" [],
      choice "allow_forever" "Allow forever (scoped)" [],
      choice "deny" "Deny" []]),
    ("scope_preview", .dict [("allow_once", inScope [("invocation_hash", .str inv.invocationHash)]),
      ("allow_until", inScope [("target", .dict targetScope)]),
      ("allow_session", inScope [("target", .dict targetScope), ("session_id", optionalText ctx.sessionId)]),
      ("allow_forever", inScope [("target", .dict targetScope)])]),
    ("deny_option", .dict [("action", .str "deny")])]

/-- `list(args.get("argv", ()))`. -/
def argvList (args : Dict) : Except PolicyError (List Json) :=
  if !Dict.has args "argv" then .ok []
  else match Dict.get args "argv" with
    | .list items => .ok items
    | .str text => .ok (text.toList.map fun c => .str (String.ofList [c]))
    | .dict items => .ok (items.map fun item => .str item.1)
    | _ => .error .type

/-- `str(args.get(key, ""))`. -/
def argText (args : Dict) (key : String) : Json :=
  .str (if Dict.has args key then rt.str (Dict.get args key) else "")

/-- The preview that `get_or_create_exact_confirmation` stores. -/
def exactPreview (inv : InvocationSummary) (confirmationPreview : Option Dict) : Except PolicyError Dict :=
  match authorizationDescriptor inv.tool inv.method with
  | some _ =>
    match confirmationPreview with
    | none => .error .assertion
    | some preview => .ok (preview.filter fun item => item.1 ≠ "display_lines")
  | none => (argvList inv.args).map fun argv =>
    [("plan_id", argText rt inv.args "plan_id"), ("plan_hash", argText rt inv.args "plan_hash"),
      ("target_id", argText rt inv.args "target_id"), ("target_revision", Dict.get inv.args "target_revision"),
      ("argv", .list argv), ("cwd", argText rt inv.args "cwd"),
      ("timeout_seconds", Dict.get inv.args "timeout_seconds"), ("expires_at", argText rt inv.args "expires_at")]

/-- The clock readings of a check. `matchAt` is the reading at which a grant is compared. -/
structure CheckClock where
  cleanupAt : DateTime
  listAt : DateTime
  matchAt : PolicyGrant → DateTime
  useAt : DateTime
  pendingAt : DateTime
  ttlFrom : DateTime

def getOrCreateExactConfirmation (s : PolicyStore) (inv : InvocationSummary) (ctx : ContextSummary)
    (subjectId : String) (confirmationPreview : Option Dict) (clock : CheckClock) (approvalId : String) :
    Except PolicyError PendingPolicyConfirmation × PolicyStore :=
  match exactPreview rt inv confirmationPreview with
  | .error e => (.error e, s)
  | .ok preview =>
    getOrCreatePendingConfirmation rt.previewIsInvalid s
      { subjectId := subjectId, tool := inv.tool, method := inv.method, invocationHash := inv.invocationHash,
        invocationId := inv.invocationId, traceId := ctx.traceId, sessionId := ctx.sessionId, preview := preview,
        ttlSeconds := ((authorizationDescriptor inv.tool inv.method).map fun d => d.confirmationTtlSeconds).getD 600 }
      clock.pendingAt clock.ttlFrom approvalId

/-- `csum.subject_id or default`. -/
def subjectOr (ctx : ContextSummary) (default : String) : String :=
  if isTruthy ctx.subjectId then ctx.subjectId.getD "" else default

def confirmDecision (ctl : PolicyCtl) (s : PolicyStore) (inv : InvocationSummary) (ctx : ContextSummary)
    (risk : RiskSpec) (reasonCode reason : String) (confirmationPreview : Option Dict) (clock : CheckClock)
    (approvalId : String) : Except PolicyError PolicyDecision × PolicyStore :=
  match defaultTargetScope rt inv with
  | .error e => (.error e, s)
  | .ok scope =>
    let decision : PolicyDecision :=
      { decision := .requireConfirm, reasonCode := reasonCode, reason := reason, risk := risk,
        confirmRequest := some (buildConfirmRequest rt inv ctx risk scope),
        invocationHash := some inv.invocationHash, confirmationPreview := confirmationPreview }
    if isExactConfirmationPair inv.tool inv.method then
      let (row, s) := getOrCreateExactConfirmation rt s inv ctx (subjectOr ctx ctl.config.subjectIdDefault)
        confirmationPreview clock approvalId
      (row.map fun row => { decision with
        approvalId := some row.approvalId
        confirmRequest := some [("approval_id", .str row.approvalId),
          ("choices", .list [.str "allow_once", .str "deny"]), ("preview", .dict row.preview)] }, s)
    else (.ok decision, s)

def resolveExactOpsDecision (s : PolicyStore) (inv : InvocationSummary) (ctx : ContextSummary) (subjectId : String)
    (risk : RiskSpec) (useAt : DateTime) : Except PolicyError (Option PolicyDecision) × PolicyStore :=
  let (result, s) := resolveMatchingActiveGrantForUse rt.previewIsInvalid s subjectId inv.tool inv.method
    inv.invocationHash ctx.sessionId useAt
  (result.map fun used => used.map fun g =>
    { decision := .allow, reasonCode := "EXACT_PENDING_ALLOW", reason := "Allowed by exact pending confirmation",
      risk := risk, matchedGrantId := some g.grantId, approvalId := g.approvalId,
      invocationHash := some inv.invocationHash,
      details := [("grant_id", .str g.grantId), ("duration_type", .str (durationText g.durationType))] }, s)

def resolveExactAuthorizationDecision (ctl : PolicyCtl) (s : PolicyStore) (inv : InvocationSummary)
    (ctx : ContextSummary) (subjectId : String) (risk : RiskSpec) (confirmationPreview : Option Dict)
    (clock : CheckClock) (approvalId : String) : Except PolicyError (Option PolicyDecision) × PolicyStore :=
  let confirm (s : PolicyStore) (reason : String) : Except PolicyError (Option PolicyDecision) × PolicyStore :=
    let (decision, s) := confirmDecision rt ctl s inv ctx risk "EXACT_AUTHORIZATION_REQUIRED" reason
      confirmationPreview clock approvalId
    (decision.map some, s)
  if isPolicyAuthorizationPair inv.tool inv.method then
    confirm s "Exact authorization is required for this action"
  else if !isExactOpsCommand inv.tool inv.method then (.ok none, s)
  else
    match resolveExactOpsDecision rt s inv ctx subjectId risk clock.useAt with
    | (.error e, s) => (.error e, s)
    | (.ok (some decision), s) => (.ok (some decision), s)
    | (.ok none, s) => confirm s "Policy confirmation is required for this exact operations command"

def previewErrorReasons : List String :=
  ["request_schema", "preparation_digest", "call_context", "calldata_limit", "preview_limit"]

def blockchainPreviewInvalidDecision (invocationHash : String) (risk : RiskSpec) (reason : Option String) :
    PolicyDecision :=
  let told := (reason.filter fun r => r ∈ previewErrorReasons).getD "request_schema"
  { decision := .deny, reasonCode := "BLOCKCHAIN_CONFIRMATION_PREVIEW_INVALID", reason := previewInvalidMessage,
    risk := risk, invocationHash := some invocationHash, details := [("reason", .str told)] }

def previewPreflight (inv : InvocationSummary) (ctx : ContextSummary) (risk : RiskSpec)
    (confirmationPreview : Option Dict) (previewError : Option String) : Option PolicyDecision :=
  let denied (reasonCode reason : String) : PolicyDecision :=
    { decision := .deny, reasonCode := reasonCode, reason := reason, risk := risk,
      invocationHash := some inv.invocationHash }
  if isExactBlockchainSend inv.tool inv.method then
    if confirmationPreview.isNone then some (blockchainPreviewInvalidDecision inv.invocationHash risk previewError)
    else none
  else match authorizationDescriptor inv.tool inv.method with
    | none => none
    | some descriptor =>
      if (descriptor.requiredSubjectId.any fun required => ctx.subjectId ≠ some required) ||
          (descriptor.requiresSession && !isTruthy ctx.sessionId) then
        some (denied "SUBJECT_UNAVAILABLE" "Authorization requires the trusted subject and session.")
      else if confirmationPreview.isNone then
        let upper := String.ofList (inv.tool.toList.map Char.toUpper)
        some (denied (upper ++ "_CONFIRMATION_PREVIEW_INVALID") "Approval preview could not be verified.")
      else none

def modeText : PolicyMode → String
  | .disabled => "disabled"
  | .logOnly => "log_only"
  | .enforce => "enforce"
  | .enforceSafe => "enforce_safe"

def authorizationPreflightDecision (inv : InvocationSummary) (ctx : ContextSummary) (risk : RiskSpec)
    (mode : PolicyMode) (confirmationPreview : Option Dict) (previewError : Option String) : Option PolicyDecision :=
  match previewPreflight inv ctx risk confirmationPreview previewError with
  | some decision => some decision
  | none =>
    if isExactConfirmationPair inv.tool inv.method && mode = .logOnly then
      let action := if isExactOpsCommand inv.tool inv.method then "operations command"
        else inv.tool ++ " " ++ inv.method
      some { decision := .deny, reasonCode := "POLICY_MODE_UNSUPPORTED",
             reason := "Enforcing policy is required for " ++ action ++ ".", risk := risk,
             invocationHash := some inv.invocationHash, details := [("mode", .str (modeText mode))] }
    else none

def configuredRuleDecision (ctl : PolicyCtl) (s : PolicyStore) (rule : Option PolicyRule) (inv : InvocationSummary)
    (ctx : ContextSummary) (risk : RiskSpec) (confirmationPreview : Option Dict) (clock : CheckClock)
    (approvalId : String) : Except PolicyError (Option PolicyDecision) × PolicyStore :=
  match rule with
  | none => (.ok none, s)
  | some rule =>
    match rule.mode with
    | .ask =>
      let (decision, s) := confirmDecision rt ctl s inv ctx risk "CONFIG_RULE_ASK"
        "Configured exact-tool rule requires confirmation" confirmationPreview clock approvalId
      (decision.map some, s)
    | .auto =>
      let decision : PolicyDecision :=
        { decision := .allow, reasonCode := "CONFIG_RULE_AUTO", reason := "Allowed by configured exact-tool rule",
          risk := risk, details := [("rule_mode", .str "auto"), ("tool_name", .str rule.toolName)] }
      (.ok (some decision), s)
    | .block => (.ok none, s)

def baselineAllowDecision (mode : PolicyMode) (risk : RiskSpec) (allowReadOnly isSensitiveTarget : Bool) :
    Option PolicyDecision :=
  if mode = .disabled then
    some { decision := .allow, reasonCode := "POLICY_DISABLED", reason := "Policy mode is disabled", risk := risk }
  else if risk.riskClass = .read && allowReadOnly && !isSensitiveTarget then
    some { decision := .allow, reasonCode := "READ_ONLY_ALLOW", reason := "Read-only operation allowed by default",
           risk := risk }
  else none

def confirmReason (ctx : ContextSummary) (risk : RiskSpec) (mode : PolicyMode) (config : PolicyConfig)
    (isSensitiveTarget : Bool) : Option (String × String) :=
  if isSensitiveTarget then some ("SENSITIVE_TARGET", "Sensitive target requires confirmation")
  else if rt.lower (stripOr ctx.modeName) = "plan" && risk.riskClass ≠ .read then
    some ("PLAN_MODE_CONFIRM", "Plan mode requires confirmation for non-read side effects")
  else if risk.riskClass = .destructive || risk.riskClass = .financial || risk.riskClass = .security then
    some ("HIGH_RISK", "High-risk action requires confirmation")
  else if (risk.riskClass = .exec || risk.riskClass = .stateChange) && risk.sideEffects ≠ .none then
    some ("SIDE_EFFECTS_CONFIRM", "Action with side effects requires confirmation")
  else if risk.reversibility = .unknown && risk.riskClass ≠ .read then
    some ("UNKNOWN_REVERSIBILITY", "Unknown reversibility requires confirmation")
  else if mode = .enforceSafe && risk.riskClass ≠ .read then
    some ("ENFORCE_SAFE_CONFIRM", "enforce_safe mode requires confirmation for non-read actions")
  else if config.defaultAction = .requireConfirm &&
      (risk.riskClass ≠ .read || !config.allowReadOnlyWithoutPrompt) then
    some ("DEFAULT_CONFIRM", "Default policy requires confirmation for non-read actions")
  else none

def isWriteUnderSandbox (ctl : PolicyCtl) (inv : InvocationSummary) : Except PolicyError Bool :=
  match argPath rt inv.args with
  | none => .ok false
  | some raw => do
    let path ← rt.expandUser raw
    ctl.config.sandboxPathPrefixes.anyM fun root => (rt.expandUser root).map fun root => startsWith path root

/-- What `_evaluate_enforced` does when no grant and no exact authorization decides. -/
def defaultDecision (ctl : PolicyCtl) (s : PolicyStore) (rule : Option PolicyRule) (inv : InvocationSummary)
    (ctx : ContextSummary) (risk : RiskSpec) (mode : PolicyMode) (config : PolicyConfig)
    (confirmationPreview : Option Dict) (clock : CheckClock) (approvalId : String) :
    Except PolicyError PolicyDecision × PolicyStore :=
  match configuredRuleDecision rt ctl s rule inv ctx risk confirmationPreview clock approvalId with
  | (.error e, s) => (.error e, s)
  | (.ok (some decision), s) => (.ok decision, s)
  | (.ok none, s) =>
    match matchesSensitiveTarget rt inv risk with
    | .error e => (.error e, s)
    | .ok isSensitive =>
      match baselineAllowDecision mode risk config.allowReadOnlyWithoutPrompt isSensitive with
      | some decision => (.ok decision, s)
      | none =>
        match confirmReason rt ctx risk mode config isSensitive with
        | some (reasonCode, reason) =>
          confirmDecision rt ctl s inv ctx risk reasonCode reason confirmationPreview clock approvalId
        | none =>
          ((if risk.riskClass = .write then isWriteUnderSandbox rt ctl inv else .ok false).map fun underSandbox =>
            if underSandbox then
              { decision := .allow, reasonCode := "SANDBOX_WRITE_ALLOW",
                reason := "Write scoped to sandbox path is allowed", risk := risk }
            else { decision := .allow, reasonCode := "NO_MATCHING_GRANT",
                   reason := "No matching grant; default allow", risk := risk }, s)

def evaluateEnforced (ctl : PolicyCtl) (s : PolicyStore) (inv : InvocationSummary) (ctx : ContextSummary)
    (risk : RiskSpec) (consumeGrants : Bool) (mode : PolicyMode) (config : PolicyConfig)
    (confirmationPreview : Option Dict) (clock : CheckClock) (approvalId : String) :
    Except PolicyError PolicyDecision × PolicyStore :=
  let s := cleanupExpired s clock.cleanupAt
  let subjectId := subjectOr ctx config.subjectIdDefault
  let rule := selectPolicyRule inv risk config
  match blockedRuleDecision rule risk with
  | some decision => (.ok decision, s)
  | none =>
    match findMatchingGrants rt (listActiveGrants s subjectId clock.listAt) inv ctx risk clock.matchAt with
    | .error e => (.error e, s)
    | .ok candidates =>
      match matchingGrantDecision rt s candidates inv risk consumeGrants clock.useAt with
      | (some decision, s) => (.ok decision, s)
      | (none, s) =>
        match resolveExactAuthorizationDecision rt ctl s inv ctx subjectId risk confirmationPreview clock
            approvalId with
        | (.error e, s) => (.error e, s)
        | (.ok (some decision), s) => (.ok decision, s)
        | (.ok none, s) =>
          defaultDecision rt ctl s rule inv ctx risk mode config confirmationPreview clock approvalId

/-- The arguments of `check`, its clock readings and the identifier that a new pending
confirmation gets. -/
structure CheckRequest where
  invocation : Invocation
  ctx : ContextSummary := {}
  riskOverride : Option RiskSpec := none
  trustedRiskOverride : Option RiskSpec := none
  configOverrides : Option PolicyConfig := none
  confirmationPreview : Option Dict := none
  confirmationPreviewError : Option String := none
  clock : CheckClock
  approvalId : String

/-- The risk that `check` works with. -/
def checkRisk (ctl : PolicyCtl) (inv : InvocationSummary) (request : CheckRequest) : RiskSpec :=
  let registered := resolveRisk rt ctl inv
  if isPolicyAuthorizationPair inv.tool inv.method then registered
  else match request.trustedRiskOverride with
    | some risk => risk
    | none => mergePolicyRisk registered request.riskOverride

/-- The decision that `log_only` returns. -/
def logOnlyDecision (risk : RiskSpec) (enforced : PolicyDecision) : PolicyDecision :=
  let would := match enforced.decision with
    | .allow => "ALLOW"
    | .deny => "DENY"
    | .requireConfirm => "REQUIRE_CONFIRM"
  { decision := .allow, reasonCode := "LOG_ONLY_ALLOW", reason := "Policy log_only mode does not block actions",
    risk := risk, matchedGrantId := enforced.matchedGrantId, confirmRequest := enforced.confirmRequest,
    details := Dict.set (Dict.set enforced.details "would_decision" (.str would)) "would_reason_code"
      (.str enforced.reasonCode) }

def check (ctl : PolicyCtl) (s : PolicyStore) (request : CheckRequest) :
    Except PolicyError PolicyDecision × PolicyStore :=
  match normalizeInvocation rt request.invocation with
  | .error e => (.error e, s)
  | .ok inv =>
    let ctx := normalizeContext request.ctx
    let risk := checkRisk rt ctl inv request
    let config := request.configOverrides.getD ctl.config
    let mode := match request.configOverrides with
      | some overrides => overrides.mode
      | none => s.mode.getD ctl.config.mode
    match authorizationPreflightDecision inv ctx risk mode request.confirmationPreview
        request.confirmationPreviewError with
    | some decision => (.ok decision, s)
    | none =>
      let (enforced, s) := evaluateEnforced rt ctl s inv ctx risk (mode ≠ .logOnly) mode config
        request.confirmationPreview request.clock request.approvalId
      (enforced.map fun decision => if mode = .logOnly then logOnlyDecision risk decision else decision, s)

/-- `validate_grant_input`, which writes the expiry of an `until` grant in UTC. Effects and
durations outside their choices are not values of the model. -/
def validateGrantInput (grant : PolicyGrantInput) : Except PolicyError PolicyGrantInput :=
  if grant.durationType = .session && !isTruthy grant.sessionId then
    .error (.value "session grants require a non-empty session_id")
  else if requiresOnceDuration rt grant.tool grant.method grant.riskFloor && grant.durationType ≠ .once then
    .error (.value (grant.tool ++ "." ++ grant.method ++ " grants must be allow once"))
  else if grant.durationType = .once && !isTruthy grant.invocationHash then
    .error (.value "once grants require invocation_hash")
  else if grant.durationType = .untilTime then
    if !isTruthy grant.expiresAt then .error (.value "until grants require expires_at")
    else match rt.fromIsoFormat (grant.expiresAt.getD "") with
      | .invalid => .error (.value "expires_at must be an ISO-8601 timestamp")
      | .naive => .error (.value "expires_at must include a timezone")
      | .outOfRange => .error .overflow
      | .aware time => .ok { grant with expiresAt := some (toIsoUtc time) }
  else .ok grant

def requiresConfirmationError (tool method : String) : PolicyError :=
  if isExactBlockchainSend tool method then
    .control "BLOCKCHAIN_SEND_GRANT_REQUIRES_CONFIRMATION" "Blockchain send grants require a pending confirmation." none
  else
    .control "EXACT_AUTHORIZATION_REQUIRES_CONFIRMATION" "Exact action grants require a pending confirmation." none

/-- `PolicyCtl.create_grant`. -/
def ctlCreateGrant (s : PolicyStore) (grant : PolicyGrantInput) (now : DateTime) (grantId : String) :
    Except PolicyError String × PolicyStore :=
  if isPolicyAuthorizationPair grant.tool grant.method then
    (.error (requiresConfirmationError grant.tool grant.method), s)
  else match validateGrantInput rt grant with
    | .error e => (.error e, s)
    | .ok grant => createGrant s grantId grant now

/-- `confirmation_grant_terms`: the duration, the expiry, the session and the hash of a grant. -/
def confirmationGrantTerms (action : String) (sessionId : Option String) (invocationHash : String)
    (untilSeconds : Option ℤ) (now : DateTime) :
    Except PolicyError (DurationType × Option String × Option String × Option String) :=
  if action = "allow_once" then .ok (.once, none, none, some invocationHash)
  else if action = "allow_until" then
    let seconds := match untilSeconds with
      | none => 600
      | some seconds => if seconds = 0 then 600 else max 1 seconds
    match now.addSeconds seconds with
    | none => .error .overflow
    | some time => .ok (.untilTime, some (toIsoUtc time), none, none)
  else if action = "allow_session" || action = "allow_session_exact" then
    if !isTruthy sessionId then .error (.value "session approval requires a non-empty session_id")
    else .ok (.session, none, sessionId, if action = "allow_session_exact" then some invocationHash else none)
  else if action = "allow_forever" then .ok (.forever, none, none, none)
  else .error (.value ("Unsupported confirmation action: " ++ action))

/-- The arguments of `create_grant_from_confirmation`, its clock readings and the identifier
that the grant gets. -/
structure ConfirmedGrantRequest where
  invocation : Invocation
  ctx : ContextSummary := {}
  action : String
  untilSeconds : Option ℤ := none
  scopeOverrides : Dict := []
  maxUses : Option ℤ := none
  termsAt : DateTime
  now : DateTime
  grantId : String

def createGrantFromConfirmation (ctl : PolicyCtl) (s : PolicyStore) (request : ConfirmedGrantRequest) :
    Except PolicyError String × PolicyStore :=
  match normalizeInvocation rt request.invocation with
  | .error e => (.error e, s)
  | .ok inv =>
    if isPolicyAuthorizationPair inv.tool inv.method then (.error (requiresConfirmationError inv.tool inv.method), s)
    else
      let ctx := normalizeContext request.ctx
      match defaultTargetScope rt inv with
      | .error e => (.error e, s)
      | .ok scope =>
        match confirmationGrantTerms request.action ctx.sessionId inv.invocationHash request.untilSeconds
            request.termsAt with
        | .error e => (.error e, s)
        | .ok (duration, expiresAt, sessionId, invocationHash) =>
          if requiresOnceDuration rt inv.tool inv.method none && duration ≠ .once then
            (.error (.value (inv.tool ++ "." ++ inv.method ++ " approvals must be allow once")), s)
          else
            ctlCreateGrant rt s
              { effect := .allow, subjectId := subjectOr ctx ctl.config.subjectIdDefault, tool := inv.tool,
                method := inv.method,
                targetJson := request.scopeOverrides.foldl (fun target item => Dict.set target item.1 item.2) scope,
                durationType := duration, expiresAt := expiresAt, sessionId := sessionId,
                invocationHash := invocationHash, maxUses := request.maxUses, createdTraceId := ctx.traceId,
                reason := some ("created_from_confirmation:" ++ request.action) }
              request.now request.grantId

end Service

end OpenMinion.PolicyDecisions
