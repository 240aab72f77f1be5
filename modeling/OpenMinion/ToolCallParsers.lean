import OpenMinion.ToolNames
import Mathlib.Data.List.Sort

/-!
# Parsers of tool calls

The parsers and the precedence between their sources. What a regular expression finds is read through `finditer`, so
that the results hold for all matches.
-/
namespace OpenMinion.ToolCallParsers
open JsonValues PythonText ToolNames

/-- The regular expressions, by the names of their constants and the places that use them. -/
inductive Pattern where
  | jsonBlock | xmlBlock | minimaxToolCall | minimaxBracketToolCall | minimaxToolName
  | minimaxFunctionCall | minimaxInvoke | minimaxParameter | channelEnvelope
  | channelEnvelopeGeneric | cliToolCommand | toolLine | argLine
  | bracketQuotedTool | bracketBareTool | bracketArgs | bracketParameter
  | functionCallTool | functionCallName | functionCallBareTool
  | toolCode | toolCodeName | toolCodeArgs | toolCodeArgument

structure Match where
  /-- `match.group(name)`; the groups without a name are `"0"` and `"1"`. -/
  group : String → String
  stop : ℕ

/-- What the parsers use of `re`, `json` and `html`. -/
structure ParserLibrary extends TextLibrary where
  finditer : Pattern → String → List Match
  /-- `json.loads`, with the position of a `JSONDecodeError`. -/
  loads : String → Except ℕ Json
  /-- The end of the value that `raw_decode` reads. -/
  rawDecode : String → Option ℕ
  unescape : String → String
  repr : Dict → String

structure ProviderToolCall where
  id : String
  name : String
  arguments : Dict
  source : String

structure ToolCallParseResult where
  calls : List ProviderToolCall := []
  metadata : Dict := []

def ParserLibrary.search (lib : ParserLibrary) (pattern : Pattern) (text : String) : Option Match :=
  (lib.finditer pattern text).head?

/-- `d.get(key, default)`. -/
def getOr (d : Dict) (key : String) (default : Json) : Json :=
  if Dict.has d key then Dict.get d key else default

/-- `left or right`. -/
def pyOr (left right : Json) : Json := if left.truthy then left else right

/-- `target.update(other)`. -/
def update (target other : Dict) : Dict := other.foldl (fun d item => Dict.set d item.1 item.2) target

def isStr : Json → Bool
  | .str _ => true
  | _ => false

/-- The dictionary that `isinstance(value, dict)` finds. -/
def asDict : Json → Option Dict
  | .dict d => some d
  | _ => none

def asList : Json → Option (List Json)
  | .list items => some items
  | _ => none

/-- `value[1:-1]` of a value in quotes. -/
def unquote (value : String) : String :=
  let quoted (quote : Char) := value.toList.head? == some quote && value.toList.getLast? == some quote
  if quoted '"' || quoted '\'' then String.ofList (value.toList.drop 1).dropLast else value

def isLineBreak (c : Char) : Bool :=
  let n := c.toNat
  (10 ≤ n && n ≤ 13) || (28 ≤ n && n ≤ 30) || n == 0x85 || n == 0x2028 || n == 0x2029

/-- `str.splitlines()`; the first argument is the current line, reversed. -/
def splitlines : List Char → List Char → List String
  | [], [] => []
  | line, [] => [String.ofList line.reverse]
  | line, '\r' :: '\n' :: cs => String.ofList line.reverse :: splitlines [] cs
  | line, c :: cs =>
    if isLineBreak c then String.ofList line.reverse :: splitlines [] cs else splitlines (c :: line) cs

section
variable (lib : ParserLibrary)

def coerceToolArguments (rawArguments : Json) : Dict :=
  match rawArguments with
  | .dict arguments => arguments
  | .str text =>
    if strip text = "" then []
    else match lib.loads (strip text) with
      | .ok (.dict parsed) => parsed
      | _ => []
  | _ => []

def copyArgAlias (arguments : Dict) (source target : String) : Dict :=
  if !Dict.has arguments target && Dict.has arguments source
  then Dict.set arguments target (Dict.get arguments source) else arguments

def coerceToolArgumentsForResolvedTool (resolvedName : String) (rawArguments : Json) : Dict :=
  let arguments := coerceToolArguments lib rawArguments
  if resolvedName = "file.write" then copyArgAlias arguments "file_path" "path" else arguments

def coerceMinimaxParameterValue (rawValue : String) : Json :=
  let token := strip (lib.unescape rawValue)
  let lowered := lib.lower token
  if token = "" then .str ""
  else if startsWith "\x7b" token || startsWith "[" token then
    match lib.loads token with
    | .ok value => value
    | .error _ => .str token
  else if lowered = "true" ∨ lowered = "false" then .bool (lowered = "true")
  else .str token

/-- The arguments of a list of matches with the groups `name` and `value`. -/
def minimaxArguments (read : String → String) (parameters : List Match) : Dict :=
  parameters.foldl (fun args parameter =>
    let name := strip (parameter.group "name")
    if name = "" then args
    else Dict.set args name (coerceMinimaxParameterValue lib (read (parameter.group "value")))) []

def parseMinimaxBracketArgs (body : String) : Dict :=
  if body = "" then [] else minimaxArguments lib (fun value => unquote (strip value)) (lib.finditer .bracketParameter body)

/-- One character of `_repair_trailing_unbalanced_json`: the open brackets, innermost first,
whether the text is in a string, and whether the character is escaped. -/
def repairStep (state : Option (List Char × Bool × Bool)) (c : Char) : Option (List Char × Bool × Bool) :=
  match state with
  | none => none
  | some (stack, inString, true) => some (stack, inString, false)
  | some (stack, inString, false) =>
    if c = '\\' then some (stack, inString, true)
    else if c = '"' then some (stack, !inString, false)
    else if inString then some (stack, inString, false)
    else if c = '{' ∨ c = '[' then some (c :: stack, inString, false)
    else if c = '}' ∨ c = ']' then
      match stack with
      | opener :: stack => if (opener, c) ∈ [('{', '}'), ('[', ']')] then some (stack, inString, false) else none
      | [] => none
    else some (stack, inString, false)

def repairTrailingUnbalancedJson (candidate : String) (errorPos : ℕ) : String :=
  let token := strip candidate
  if token = "" ∨ errorPos + 1 < token.length then ""
  else match token.toList.foldl repairStep (some ([], false, false)) with
    | some (stack, false, _) =>
      if stack = [] ∨ 3 < stack.length then ""
      else token ++ String.ofList (stack.map fun opener => if opener = '{' then '}' else ']')
    | _ => ""

/-- `_decode_json`; `None` and a decoded `null` are both `null`. -/
def decodeJson (rawPayload : String) : Json :=
  let candidate := strip rawPayload
  if candidate = "" then .null
  else match lib.loads candidate with
    | .ok payload => payload
    | .error pos =>
      let repaired := repairTrailingUnbalancedJson candidate pos
      if repaired = "" then .null
      else match lib.loads repaired with
        | .ok payload => payload
        | .error _ => .null

/-- The text from the first `opener` to the last `closer`. -/
def between (opener closer : Char) (cs : List Char) : Option String :=
  match cs.findIdx? (· == opener), cs.reverse.findIdx? (· == closer) with
  | some start, some fromEnd =>
    let stop := cs.length - 1 - fromEnd
    if start < stop then some (strip (String.ofList ((cs.take (stop + 1)).drop start))) else none
  | _, _ => none

def extractEmbeddedJsonCandidate (raw : String) : Option String :=
  (between '{' '}' raw.toList).or (between '[' ']' raw.toList)

/-- One index of `_embedded_json_value_candidates`: the spans so far and the candidates. -/
def embeddedStep (cs : List Char) (state : List (ℕ × ℕ) × List String) (index : ℕ) : List (ℕ × ℕ) × List String :=
  let rest := cs.drop index
  if rest.head? ≠ some '{' ∧ rest.head? ≠ some '[' then state
  else if state.1.any fun span => decide (span.1 < index ∧ index < span.2) then state
  else match lib.rawDecode (String.ofList rest) with
    | none => state
    | some stop =>
      let candidate := strip (String.ofList (rest.take stop))
      (state.1 ++ [(index, index + stop)], if candidate = "" then state.2 else state.2 ++ [candidate])

def embeddedJsonValueCandidates (text : String) : List String :=
  ((List.range text.length).foldl (embeddedStep lib text.toList) ([], [])).2

def jsonPayloadCandidates (text : String) : List String :=
  let raw := strip text
  let embedded := (extractEmbeddedJsonCandidate raw).filter (· ≠ raw)
  (if raw = "" then [] else raw :: embedded.toList) ++
    (lib.finditer .jsonBlock raw).map (fun found => strip (found.group "1")) ++
    (lib.finditer .xmlBlock raw).map (fun found => strip (found.group "1")) ++
    embeddedJsonValueCandidates lib raw

def coerceInlineToolArguments (item : Dict) : Dict :=
  item.filter fun entry => entry.1 ∉ ["id", "tool_call_id", "name", "tool_name", "tool", ":op", "type",
    "arguments", ":args", "parameters", "tool_input"]

/-- The first of `arguments`, `:args`, `parameters` and `tool_input` that is not `None`. -/
def itemRawArguments (item : Dict) : Json :=
  match ["arguments", ":args", "parameters", "tool_input"].find? fun key => Dict.get item key ≠ .null with
  | some key => Dict.get item key
  | none => .dict (coerceInlineToolArguments item)

def itemName (item : Dict) : String :=
  strip (lib.str (getOr item "name" (getOr item "tool_name" (getOr item "tool" (getOr item ":op" (.str ""))))))

def parseToolCallItem (source : String) (allowed : Option (List String)) (item : Json) : Option ProviderToolCall :=
  (asDict item).bind fun item =>
    let arguments := coerceToolArguments lib (itemRawArguments item)
    (resolveAllowedToolName lib.toTextLibrary (itemName lib item) allowed arguments).map fun resolvedName => {
      id := strip (lib.str (getOr item "id" (getOr item "tool_call_id" (.str ""))))
      name := resolvedName
      arguments := coerceToolArgumentsForResolvedTool lib resolvedName (.dict arguments)
      source := source }

def parseToolCallItems (items : List Json) (source : String) (allowed : Option (List String)) : List ProviderToolCall :=
  items.filterMap (parseToolCallItem lib source allowed)

def inferredName (payload : Dict) : Option String :=
  if Dict.has payload "path" && Dict.has payload "content" then some "file.write"
  else if Dict.has payload "command" then some "exec.run"
  else none

def inferSingleToolCallFromSchemaPayload (payload : Dict) (source : String) (allowed : Option (List String)) :
    Option ProviderToolCall :=
  (inferredName payload).bind fun name =>
    (resolveAllowedToolName lib.toTextLibrary name allowed payload).map fun resolvedName => {
      id := strip (lib.str (pyOr (getOr payload "id" (.str "")) (.str "")))
      name := resolvedName
      arguments := coerceToolArgumentsForResolvedTool lib resolvedName (.dict payload)
      source := source }

def isSubmitOutputOnlyAllowed (allowed : Option (List String)) : Bool :=
  match allowed with
  | none => false
  | some names =>
    let normalized := (names.map (stripToolWrapperPrefix lib.toTextLibrary)).filter (· ≠ "")
    normalized ≠ [] && normalized.all (· == "submit_output")

def coerceSubmitOutputPayload (payload : Dict) : Dict :=
  (["decision", "Decision", "output", "result", "payload", "inputs"].findSome? fun key =>
    match coerceToolArguments lib (Dict.get payload key), Dict.get payload key with
    | [], .dict _ => some []
    | [], _ => none
    | parsed, _ => some parsed).getD payload

def hasToolName (payload : Dict) : Bool :=
  ["name", "tool_name", "tool"].any fun key => isStr (Dict.get payload key)

def toolCallsFromPayload (payload : Json) (source : String) (allowed : Option (List String)) : List ProviderToolCall :=
  match payload with
  | .dict payload =>
    match asList (Dict.get payload "tool_calls") with
    | some items => parseToolCallItems lib items source allowed
    | none =>
      if hasToolName payload then parseToolCallItems lib [.dict payload] source allowed
      else match inferSingleToolCallFromSchemaPayload lib payload source allowed with
        | some inferred => [inferred]
        | none =>
          if isSubmitOutputOnlyAllowed lib allowed then
            [{ id := "", name := "submit_output", arguments := coerceSubmitOutputPayload lib payload, source := source }]
          else []
  | .list items => parseToolCallItems lib items source allowed
  | _ => []

def extractRawToolNameFromPayload (payload : Json) : Option String :=
  let nonempty (text : String) := if strip text = "" then none else some (strip text)
  match payload with
  | .dict payload =>
    match Dict.get payload "tool_calls" with
    | .list (.dict first :: _) => nonempty (lib.str (getOr first "name" (.str "")))
    | _ => match Dict.get payload "name", Dict.get payload ":op" with
      | .str name, _ => nonempty name
      | _, .str operation => nonempty operation
      | _, _ => none
  | .list (.dict first :: _) =>
    nonempty (lib.str (pyOr (pyOr (Dict.get first "name") (Dict.get first ":op")) (.str "")))
  | _ => none

/-- `tool_not_allowed`, with the name that was asked for. -/
def rejected (mode rawName : String) : ToolCallParseResult where
  metadata := [("fallback_parse_mode", .str mode), ("fallback_tool_name_raw", .str rawName),
    ("fallback_rejected_reason", .str "tool_not_allowed")]

def fallbackCall (allowed : Option (List String)) (name : String) (arguments : Dict) (resolving : Dict) :
    Option ProviderToolCall :=
  (resolveAllowedToolName lib.toTextLibrary name allowed resolving).map fun resolvedName =>
    { id := "", name := resolvedName, arguments := arguments, source := "fallback" }

def nativeCall (allowed : Option (List String)) (id : String) (function : Dict) : Option ProviderToolCall :=
  let name := strip (lib.str (getOr function "name" (.str "")))
  let arguments := coerceToolArguments lib (Dict.get function "arguments")
  (resolveAllowedToolName lib.toTextLibrary name allowed arguments).map fun resolvedName => {
    id := id
    name := resolvedName
    arguments := coerceToolArgumentsForResolvedTool lib resolvedName (.dict arguments)
    source := "native" }

def nativeItem (allowed : Option (List String)) (item : Json) : Option ProviderToolCall :=
  (asDict item).bind fun item =>
    (asDict (Dict.get item "function")).bind fun function =>
      nativeCall lib allowed (strip (lib.str (getOr item "id" (.str "")))) function

def parseNative (messagePayload : Json) (allowedToolNames : Option (List String)) : ToolCallParseResult :=
  match asDict messagePayload with
  | none => {}
  | some message =>
    let allowed := normalizeAllowedToolNames allowedToolNames
    let metadata : Dict := [("tool_parse_format", .str "openai_native")]
    let parsedCalls := ((asList (Dict.get message "tool_calls")).getD []).filterMap (nativeItem lib allowed)
    if !parsedCalls.isEmpty then { calls := parsedCalls, metadata := metadata }
    else match (asDict (Dict.get message "function_call")).bind (nativeCall lib allowed "") with
      | some call => { calls := [call], metadata := metadata }
      | none => {}

def parseCliCommand (text : String) (allowedToolNames : Option (List String)) : ToolCallParseResult :=
  let allowed := normalizeAllowedToolNames allowedToolNames
  match lib.search .cliToolCommand (strip text) with
  | none => {}
  | some command =>
    let rawName := strip (command.group "name")
    let args := coerceToolArguments lib (.str (command.group "args"))
    match fallbackCall lib allowed rawName args args with
    | none => rejected "cli_command" rawName
    | some call => {
      calls := [call]
      metadata := [("fallback_parse_mode", .str "cli_command"), ("fallback_tool_name_raw", .str rawName),
        ("fallback_tool_name_normalized", .str call.name)] }

def directiveArgs : Bool → Dict → List String → Dict
  | _, args, [] => args
  | seenArg, args, line :: lines =>
    if strip line = "" then if seenArg then args else directiveArgs seenArg args lines
    else match lib.search .argLine line with
      | none => if seenArg then args else directiveArgs seenArg args lines
      | some argument =>
        let value := unquote (strip (argument.group "value"))
        directiveArgs true (Dict.set args (strip (argument.group "key")) (coerceMinimaxParameterValue lib value)) lines

def parseToolDirective (text : String) (allowedToolNames : Option (List String)) : ToolCallParseResult :=
  let raw := strip text
  let allowed := normalizeAllowedToolNames allowedToolNames
  if raw = "" then {}
  else match lib.search .toolLine raw with
    | none => {}
    | some directive =>
      let rawName := strip (directive.group "name")
      let args := directiveArgs lib false [] (splitlines [] (raw.toList.drop directive.stop))
      match fallbackCall lib allowed rawName args args with
      | none => rejected "tool_directive" rawName
      | some call => {
        calls := [call]
        metadata := [("fallback_parse_mode", .str "tool_directive"), ("fallback_tool_name_raw", .str rawName),
          ("fallback_tool_name_normalized", .str call.name)] }

def bracketRequest (found : Match) : Option (String × Dict) :=
  let block := found.group "1"
  ((lib.search .bracketQuotedTool block).or (lib.search .bracketBareTool block)).map fun tool =>
    let argsBlock := ((lib.search .bracketArgs block).map (·.group "body")).getD ""
    (strip (tool.group "name"), parseMinimaxBracketArgs lib argsBlock)

def parseMinimaxBracket (text : String) (allowedToolNames : Option (List String)) : ToolCallParseResult :=
  let allowed := normalizeAllowedToolNames allowedToolNames
  let requests := (lib.finditer .minimaxBracketToolCall (strip text)).filterMap (bracketRequest lib)
  let parsed := requests.filterMap fun request => fallbackCall lib allowed request.1 request.2 request.2
  match requests, parsed with
  | [], _ => {}
  | (rawName, _) :: _, [] => if rawName = "" then {} else rejected "minimax_bracket" rawName
  | (rawName, _) :: _, call :: _ => {
    calls := parsed
    metadata := ("fallback_parse_mode", .str "minimax_bracket") :: (if rawName = "" then [] else
      [("fallback_tool_name_raw", .str rawName), ("fallback_tool_name_normalized", .str call.name)]) }

def coerceWrappedArguments (rawPayload : Json) : Dict :=
  match rawPayload with
  | .dict arguments => arguments
  | .str text => match coerceMinimaxParameterValue lib text with
    | .dict arguments => arguments
    | _ => coerceToolArguments lib (.str text)
  | _ => []

/-- The name that stands in the arguments of a `tool_use` wrapper. -/
def wrappedName (args : Dict) : String := strip (lib.str
  (pyOr (pyOr (pyOr (Dict.get args "tool_name") (Dict.get args "tool")) (Dict.get args "name")) (.str "")))

/-- `_resolve_tool_use_wrapper`: the resolved name, the arguments and the name as written. -/
def resolveToolUseWrapper (args : Dict) (allowed : Option (List String)) : Option (String × Dict × String) :=
  if wrappedName lib args = "" then none
  else (resolveAllowedToolName lib.toTextLibrary (wrappedName lib args) allowed []).map fun resolvedName =>
    let payload := getOr args "arguments" (getOr args "args" (.dict []))
    let normalizedArgs := coerceWrappedArguments lib payload
    (resolvedName, if normalizedArgs.isEmpty
      then args.filter fun entry => entry.1 ∉ ["tool_name", "tool", "name", "arguments", "args"]
      else normalizedArgs, wrappedName lib args)

/-- A block asks for a name with arguments; a `tool_use` wrapper is looked into in some blocks. -/
structure XmlRequest where
  name : String
  arguments : Dict
  unwraps : Bool

abbrev XmlState := Option String × List ProviderToolCall

def isToolUseWrapper (request : XmlRequest) : Bool :=
  request.unwraps && decide (normalizeToolName lib.toTextLibrary request.name ∈ ["tool_use", "tooluse"])

/-- What a `tool_use` wrapper asks for instead of its own name. -/
def wrappedRequest (allowed : Option (List String)) (request : XmlRequest) : Option (String × Dict × String) :=
  if isToolUseWrapper lib request then resolveToolUseWrapper lib request.arguments allowed else none

def xmlStep (allowed : Option (List String)) (state : XmlState) (request : XmlRequest) : XmlState :=
  let rawName := if state.1.isNone ∧ request.name ≠ "" then some request.name else state.1
  let call (name : String) (arguments : Dict) : ProviderToolCall :=
    { id := "", name := name, arguments := arguments, source := "fallback" }
  match wrappedRequest lib allowed request, resolveAllowedToolName lib.toTextLibrary request.name allowed [] with
  | some (wrapped, args, wrappedRawName), _ =>
    (if rawName.isNone ∧ wrappedRawName ≠ "" then some wrappedRawName else rawName, state.2 ++ [call wrapped args])
  | none, some resolved => (rawName, state.2 ++ [call resolved request.arguments])
  | none, none => (rawName, state.2)

def bodyArguments (body : String) : Dict := minimaxArguments lib id (lib.finditer .minimaxParameter body)

def invokeRequests (block : String) : List XmlRequest :=
  (lib.finditer .minimaxInvoke block).map fun invoke =>
    ⟨strip (invoke.group "name"), bodyArguments lib (invoke.group "body"), true⟩

def extractFunctionCallName (block : String) : String :=
  match [Pattern.functionCallTool, .functionCallName, .functionCallBareTool].findSome? (lib.search · block) with
  | some found => strip (found.group "name")
  | none => ""

def functionCallRequests (raw : String) : List XmlRequest :=
  (lib.finditer .minimaxFunctionCall raw).map fun functionCall =>
    let body := functionCall.group "body"
    ⟨extractFunctionCallName lib body, bodyArguments lib body, true⟩

def extractToolCodeName (block : String) : String :=
  match lib.search .toolCodeName block with
  | some found => strip (found.group "name")
  | none => ""

def extractToolCodeArgs (block : String) : Dict :=
  match lib.search .toolCodeArgs block with
  | some found => minimaxArguments lib (fun value => unquote (strip value)) (lib.finditer .toolCodeArgument (found.group "body"))
  | none => []

def toolCodeRequests (raw : String) : List XmlRequest :=
  (lib.finditer .toolCode raw).map fun toolCode =>
    let body := toolCode.group "body"
    ⟨extractToolCodeName lib body, extractToolCodeArgs lib body, false⟩

def toolNameRequests (raw : String) : List XmlRequest :=
  (lib.finditer .minimaxToolName raw).map fun tool =>
    ⟨strip (tool.group "name"), bodyArguments lib (tool.group "body"), false⟩

def xmlForms (raw : String) : List (List XmlRequest) :=
  let blocks := if (lib.search .minimaxToolCall raw).isSome
    then (lib.finditer .minimaxToolCall raw).map (·.group "0") else [raw]
  [blocks.flatMap (invokeRequests lib), functionCallRequests lib raw, toolCodeRequests lib raw, toolNameRequests lib raw]

def parseMinimaxXml (text : String) (allowedToolNames : Option (List String)) : ToolCallParseResult :=
  let raw := strip text
  let allowed := normalizeAllowedToolNames allowedToolNames
  if raw = "" then {}
  else
    let final := (xmlForms lib raw).foldl (fun state requests =>
      if state.2.isEmpty then requests.foldl (xmlStep lib allowed) state else state) (none, [])
    match final with
    | (none, []) => {}
    | (some rawName, []) => rejected "minimax_xml" rawName
    | (rawName, call :: _) => {
      calls := final.2
      metadata := ("fallback_parse_mode", .str "minimax_xml") ::
        (rawName.toList.map fun name => ("fallback_tool_name_raw", .str name)) ++
        if strip call.name = "" then [] else [("fallback_tool_name_normalized", .str (strip call.name))] }

def toolCallKey (call : ProviderToolCall) : String × String × String :=
  (call.id, call.name, lib.repr (call.arguments.insertionSort fun a b => a.1 ≤ b.1))

def hasExplicitToolEnvelope (payload : Json) : Bool :=
  match payload with
  | .list _ => true
  | .dict payload => (asList (Dict.get payload "tool_calls")).isSome ||
      ["name", "tool_name", "tool", ":op"].any fun key => isStr (Dict.get payload key)
  | _ => false

structure JsonState where
  metadata : Dict
  collected : List ProviderToolCall
  seenCalls : List (String × String × String)

def jsonStep (allowExplicitToolEnvelopes : Bool) (allowed : Option (List String)) (state : JsonState)
    (candidate : String) : JsonState :=
  let payload := decodeJson lib candidate
  if !allowExplicitToolEnvelopes && hasExplicitToolEnvelope payload then state
  else
    let parsed := toolCallsFromPayload lib payload "fallback" allowed
    if parsed.isEmpty then state
    else {
      metadata := match extractRawToolNameFromPayload lib payload with
        | some rawName => Dict.set state.metadata "fallback_tool_name_raw" (.str rawName)
        | none => state.metadata
      collected := state.collected ++ parsed.filter fun call => toolCallKey lib call ∉ state.seenCalls
      seenCalls := state.seenCalls ++ parsed.map (toolCallKey lib) }

/-- The candidates without repetition are those that `seen_candidates` lets through. -/
def uniqueCandidates (text : String) : List String := (jsonPayloadCandidates lib text).reverse.dedup.reverse

def parseJsonFallback (allowExplicitToolEnvelopes : Bool) (text : String) (allowedToolNames : Option (List String)) :
    ToolCallParseResult :=
  let allowed := normalizeAllowedToolNames allowedToolNames
  let final := (uniqueCandidates lib text).foldl (jsonStep lib allowExplicitToolEnvelopes allowed)
    ⟨[("fallback_parse_mode", .str "json_payload")], [], []⟩
  if final.collected.isEmpty then {}
  else {
    calls := final.collected
    metadata := Dict.set final.metadata "fallback_json_blocks_collected" (.str (toString final.collected.length)) }

def normalizeEnvelopeTarget (target : String) : String :=
  let rawTarget := strip target
  let stripped := stripToolWrapperPrefix lib.toTextLibrary rawTarget
  match canonicalModelToolId lib.toTextLibrary rawTarget, canonicalModelToolId lib.toTextLibrary stripped with
  | some canonical, _ => canonical
  | none, some canonical => canonical
  | none, none => stripped

abbrev EnvelopeState := Dict × List ProviderToolCall

def noteTarget (metadata : Dict) (rawName rawTarget : String) : Dict :=
  if Dict.get metadata "fallback_tool_name_raw" = .null then
    Dict.set (Dict.set metadata "fallback_tool_name_raw" (.str rawName)) "envelope_target_raw" (.str rawTarget)
  else metadata

def rejectEnvelope (metadata : Dict) (reason : String) : Dict :=
  Dict.set metadata "envelope_rejected_reason" (.str reason)

def envelopeCall (allowed : Option (List String)) (wrappers : List String) (state : EnvelopeState)
    (metadata : Dict) (name jsonArgs : String) : EnvelopeState :=
  match asDict (decodeJson lib jsonArgs) with
  | some args =>
    if normalizeToolName lib.toTextLibrary name ∈ wrappers then
      (rejectEnvelope metadata "unsupported_tool_request_wrapper", state.2)
    else match fallbackCall lib allowed name args [] with
      | some call => (Dict.set metadata "envelope_target_normalized" (.str call.name), state.2 ++ [call])
      | none => (rejectEnvelope metadata "tool_not_allowed", state.2)
  | none => (rejectEnvelope metadata "malformed_json_args", state.2)

def envelopeStep (allowed : Option (List String)) (state : EnvelopeState) (found : Match) : EnvelopeState :=
  let toolNameRaw := strip (found.group "tool_name")
  envelopeCall lib allowed ["request", "tool_request"] state (noteTarget state.1 toolNameRaw ("tool." ++ toolNameRaw))
    toolNameRaw (strip (found.group "json_args"))

def envelopeGenericStep (allowed : Option (List String)) (state : EnvelopeState) (found : Match) : EnvelopeState :=
  let toolTargetRaw := strip (found.group "tool_target")
  let metadata := noteTarget state.1 toolTargetRaw toolTargetRaw
  let name := normalizeEnvelopeTarget lib toolTargetRaw
  if name = "" then (rejectEnvelope metadata "unknown_target", state.2)
  else envelopeCall lib allowed ["request"] state metadata name (strip (found.group "json_args"))

def parseEnvelope (text : String) (allowedToolNames : Option (List String)) : ToolCallParseResult :=
  let raw := strip text
  let allowed := normalizeAllowedToolNames allowedToolNames
  let first := (lib.finditer .channelEnvelope raw).foldl (envelopeStep lib allowed)
    ([("fallback_parse_mode", .str "channel_envelope")], [])
  let final := if first.2.isEmpty then (lib.finditer .channelEnvelopeGeneric raw).foldl (envelopeGenericStep lib allowed) first
    else first
  if !final.2.isEmpty then { calls := final.2, metadata := final.1 }
  else if (Dict.get final.1 "fallback_tool_name_raw").truthy || (Dict.get final.1 "envelope_rejected_reason").truthy then
    { metadata := final.1 }
  else {}

inductive Parser where
  | openaiNative | minimaxXml | minimaxBracket | cliCommand | toolDirective
  | jsonFallback | jsonSchema | openrouterEnvelope
  deriving DecidableEq

def modelHandlers : List Parser := [.minimaxXml, .minimaxBracket, .cliCommand, .toolDirective, .jsonFallback]

def structuredModelHandlers : List Parser := [.minimaxXml, .minimaxBracket, .cliCommand, .jsonSchema]

def parserHandlersByName : List (String × Parser) := [
  ("openai_native", .openaiNative), ("minimax_xml", .minimaxXml), ("minimax_bracket", .minimaxBracket),
  ("cli_command", .cliCommand), ("tool_directive", .toolDirective), ("json_fallback", .jsonFallback),
  ("json_schema", .jsonSchema), ("openrouter_envelope", .openrouterEnvelope)]

/-- `parse_envelope` of the envelope parser and `parse_text` of the others. -/
def Parser.parse (parser : Parser) (text : String) (allowed : Option (List String)) : ToolCallParseResult :=
  match parser with
  | .openaiNative => {}
  | .minimaxXml => parseMinimaxXml lib text allowed
  | .minimaxBracket => parseMinimaxBracket lib text allowed
  | .cliCommand => parseCliCommand lib text allowed
  | .toolDirective => parseToolDirective lib text allowed
  | .jsonFallback => parseJsonFallback lib true text allowed
  | .jsonSchema => parseJsonFallback lib false text allowed
  | .openrouterEnvelope => parseEnvelope lib text allowed

def parseNativeToolCalls (messagePayload : Json) (allowed : Option (List String)) : ToolCallParseResult :=
  let result := parseNative lib messagePayload allowed
  if result.calls.isEmpty then {} else result

def selectedHandlers (parserNames : List String) : List Parser :=
  parserNames.filterMap (parserHandlersByName.lookup ·)

/-- The provider's envelope parsers. Every provider falls back to the ones of OpenRouter, which
are the only ones. -/
def providerHandlers (parserNames : List String) : List Parser :=
  if parserNames = [] then [.openrouterEnvelope]
  else (selectedHandlers parserNames).filter (· = .openrouterEnvelope)

def textHandlers (whenNothingSelected : List Parser) (parserNames : List String) : List Parser :=
  if parserNames = [] then whenNothingSelected
  else (selectedHandlers parserNames).filter (· ≠ .openrouterEnvelope)

def tryHandlers (text : String) (allowed : Option (List String)) : Dict → List Parser → ToolCallParseResult
  | collected, [] => { metadata := collected }
  | collected, handler :: handlers =>
    let result := handler.parse lib text allowed
    let collected := update collected result.metadata
    if result.calls.isEmpty then tryHandlers text allowed collected handlers
    else { calls := result.calls, metadata := collected }

def parseFallbackToolCalls (text : String) (allowed : Option (List String)) (parserPluginSelection : List String) :
    ToolCallParseResult :=
  tryHandlers lib text allowed [] (providerHandlers parserPluginSelection ++ textHandlers modelHandlers parserPluginSelection)

def parseStructuredToolCallEnvelopes (text : String) (allowed : Option (List String))
    (parserPluginSelection : List String) : ToolCallParseResult :=
  tryHandlers lib text allowed [] (textHandlers structuredModelHandlers parserPluginSelection)

structure ToolCallFallbackSource where
  source : String
  text : String

structure ToolCallSourceResolution where
  calls : List ProviderToolCall := []
  selectedSource : String := "none"
  attemptedFallbackSources : List String := []
  skippedFallbackSources : List String := []
  nativeCallCount : ℕ := 0
  parseMetadata : Dict := []

def normalizeFallbackSources (sources : List ToolCallFallbackSource) : List ToolCallFallbackSource :=
  (sources.filter fun candidate => strip candidate.text ≠ "").map fun candidate =>
    ⟨if strip candidate.source = "" then "fallback" else strip candidate.source, strip candidate.text⟩

def structuredMode (fallbackParserPolicy fallbackMode : String) : Bool :=
  let policy := lib.lower (strip fallbackParserPolicy)
  if policy = "structured" ∨ policy = "full" then policy = "structured"
  else lib.lower (strip fallbackMode) = "structured"

def parseSource (structured : Bool) (text : String) (allowed : Option (List String)) (selection : List String) :
    ToolCallParseResult :=
  if structured then parseStructuredToolCallEnvelopes lib text allowed selection
  else parseFallbackToolCalls lib text allowed selection

def resolveFallbackSources (structured : Bool) (allowed : Option (List String)) (selection : List String) :
    List String → Dict → List ToolCallFallbackSource → ToolCallSourceResolution
  | attempted, collected, [] => { attemptedFallbackSources := attempted, parseMetadata := collected }
  | attempted, collected, candidate :: candidates =>
    let result := parseSource lib structured candidate.text allowed selection
    let attempted := attempted ++ [candidate.source]
    let collected := update collected result.metadata
    if result.calls.isEmpty then resolveFallbackSources structured allowed selection attempted collected candidates
    else {
      calls := result.calls
      selectedSource := candidate.source
      attemptedFallbackSources := attempted
      parseMetadata := collected }

def resolveToolCallSourcePrecedence (messagePayload : Json) (fallbackSources : List ToolCallFallbackSource)
    (allowedToolNames : Option (List String)) (fallbackEnabled : Bool) (selection : List String)
    (fallbackParserPolicy fallbackMode : String) : ToolCallSourceResolution :=
  -- no collection and an empty one become the same list
  let allowed := some (allowedToolNames.getD [])
  let sources := normalizeFallbackSources fallbackSources
  let native := parseNativeToolCalls lib messagePayload allowed
  if !native.calls.isEmpty then {
    calls := native.calls
    selectedSource := "native"
    skippedFallbackSources := sources.map (·.source)
    nativeCallCount := native.calls.length
    parseMetadata := native.metadata }
  else if fallbackEnabled then
    resolveFallbackSources lib (structuredMode lib fallbackParserPolicy fallbackMode) allowed selection [] [] sources
  else { skippedFallbackSources := sources.map (·.source) }

end
end OpenMinion.ToolCallParsers
