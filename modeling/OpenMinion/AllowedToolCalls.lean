import OpenMinion.ToolCallParsers

/-!
# Calls outside the allowed set

What each parser is asked for, and from that which calls the four entry points can return: those of the first of their
sources that has any.
-/
namespace OpenMinion.AllowedToolCalls
open JsonValues PythonText ToolNames ToolCallParsers

section
variable {α β : Type}

def firstNonempty : List (List α) → List α
  | [] => []
  | list :: lists => if list.isEmpty then firstNonempty lists else list

theorem firstNonempty_singleton (list : List α) : firstNonempty [list] = list := by
  cases list <;> rfl

theorem firstNonempty_append (lists others : List (List α)) :
    firstNonempty (lists ++ others) =
      if (firstNonempty lists).isEmpty then firstNonempty others else firstNonempty lists := by
  induction lists with
  | nil => rfl
  | cons list lists ih =>
    rw [List.cons_append, firstNonempty, firstNonempty]
    by_cases h : list.isEmpty
    · rw [if_pos h, if_pos h, ih]
    · simp [h]

theorem firstNonempty_pair_cons (list other : List α) (lists : List (List α)) :
    firstNonempty (firstNonempty [list, other] :: lists) = firstNonempty (list :: other :: lists) := by
  cases list with
  | nil => cases other <;> rfl
  | cons a list => rfl

theorem firstNonempty_ne_nil {lists : List (List α)} {list : List α} (hmem : list ∈ lists) (hne : list ≠ []) :
    firstNonempty lists ≠ [] := by
  induction lists with
  | nil => cases hmem
  | cons head lists ih =>
    rw [firstNonempty]
    cases head with
    | cons a head => simp
    | nil =>
      obtain rfl | hmem := List.mem_cons.mp hmem
      · exact absurd rfl hne
      · exact ih hmem

theorem mem_firstNonempty {f : β → List α} {sources : List β} {a : α} (h : a ∈ firstNonempty (sources.map f)) :
    ∃ before source after, sources = before ++ source :: after ∧ (∀ other ∈ before, f other = []) ∧ a ∈ f source := by
  induction sources with
  | nil => cases h
  | cons source sources ih =>
    rw [List.map_cons, firstNonempty] at h
    split at h
    · next hempty =>
      obtain ⟨before, found, after, rfl, hbefore, hmem⟩ := ih h
      refine ⟨source :: before, found, after, rfl, ?_, hmem⟩
      rintro other (_ | ⟨_, hother⟩)
      · exact List.isEmpty_iff.mp hempty
      · exact hbefore other hother
    · exact ⟨[], source, sources, rfl, nofun, h⟩

end

abbrev ToolRequest := String × Dict

section
variable (lib : ParserLibrary)

def functionRequest (function : Dict) : ToolRequest :=
  (strip (lib.str (getOr function "name" (.str ""))), coerceToolArguments lib (Dict.get function "arguments"))

def nativeItemRequest (item : Json) : Option ToolRequest :=
  (asDict item).bind fun item => (asDict (Dict.get item "function")).map (functionRequest lib)

def nativeForms (messagePayload : Json) : List (List ToolRequest) :=
  match asDict messagePayload with
  | none => []
  | some message =>
    [((asList (Dict.get message "tool_calls")).getD []).filterMap (nativeItemRequest lib),
      (asDict (Dict.get message "function_call")).toList.map (functionRequest lib)]

def itemRequest (item : Json) : Option ToolRequest :=
  (asDict item).map fun item => (itemName lib item, coerceToolArguments lib (itemRawArguments item))

def payloadRequests : Json → List ToolRequest
  | .dict payload => match asList (Dict.get payload "tool_calls") with
    | some items => items.filterMap (itemRequest lib)
    | none =>
      if hasToolName payload then (itemRequest lib (.dict payload)).toList
      else (inferredName payload).toList.map fun name => (name, payload)
  | .list items => items.filterMap (itemRequest lib)
  | _ => []

def readPayloads (allowExplicitToolEnvelopes : Bool) (text : String) : List Json :=
  ((uniqueCandidates lib text).map (decodeJson lib)).filter fun payload =>
    allowExplicitToolEnvelopes || !hasExplicitToolEnvelope payload

/-- The name of a block and, in a `tool_use` wrapper, the name inside. -/
def xmlRequests (request : XmlRequest) : List ToolRequest :=
  (request.name, []) :: if isToolUseWrapper lib request then [(wrappedName lib request.arguments, [])] else []

def envelopeRequest (wrappers : List String) (name jsonArgs : String) : Option ToolRequest :=
  (asDict (decodeJson lib jsonArgs)).bind fun _ =>
    if normalizeToolName lib.toTextLibrary name ∈ wrappers then none else some (name, [])

def channelRequest (found : Match) : Option ToolRequest :=
  envelopeRequest lib ["request", "tool_request"] (strip (found.group "tool_name")) (strip (found.group "json_args"))

def genericRequest (found : Match) : Option ToolRequest :=
  let name := normalizeEnvelopeTarget lib (strip (found.group "tool_target"))
  if name = "" then none else envelopeRequest lib ["request"] name (strip (found.group "json_args"))

def envelopeForms (raw : String) : List (List ToolRequest) :=
  [(lib.finditer .channelEnvelope raw).filterMap (channelRequest lib),
    (lib.finditer .channelEnvelopeGeneric raw).filterMap (genericRequest lib)]

def textRequests (parser : Parser) (text : String) : List ToolRequest :=
  let raw := strip text
  match parser with
  | .openaiNative => []
  | .minimaxXml => if raw = "" then [] else (xmlForms lib raw).flatten.flatMap (xmlRequests lib)
  | .minimaxBracket => (lib.finditer .minimaxBracketToolCall raw).filterMap (bracketRequest lib)
  | .cliCommand => (lib.search .cliToolCommand raw).toList.map fun command =>
      (strip (command.group "name"), coerceToolArguments lib (.str (command.group "args")))
  | .toolDirective => if raw = "" then [] else (lib.search .toolLine raw).toList.map fun directive =>
      (strip (directive.group "name"), directiveArgs lib false [] (splitlines [] (raw.toList.drop directive.stop)))
  | .jsonFallback => (readPayloads lib true text).flatMap (payloadRequests lib)
  | .jsonSchema => (readPayloads lib false text).flatMap (payloadRequests lib)
  | .openrouterEnvelope => (envelopeForms lib raw).flatten

/-- What an entry point reads: the native message, or a text with one of the parsers. -/
inductive Source where
  | native (messagePayload : Json)
  | text (parser : Parser) (raw : String)

def Source.requests : Source → List ToolRequest
  | .native messagePayload => (nativeForms lib messagePayload).flatten
  | .text parser raw => textRequests lib parser raw

def Source.payloads : Source → List Json
  | .text .jsonFallback raw => readPayloads lib true raw
  | .text .jsonSchema raw => readPayloads lib false raw
  | _ => []

def Source.calls (allowed : Option (List String)) : Source → List ProviderToolCall
  | .native messagePayload => (parseNative lib messagePayload allowed).calls
  | .text parser raw => (parser.parse lib raw allowed).calls

/-- A payload that names no tool: it becomes the arguments of `submit_output` when this tool
alone is allowed. -/
def isBarePayload (names : List String) : Json → Bool
  | .dict payload => (asList (Dict.get payload "tool_calls")).isNone && !hasToolName payload &&
      (inferSingleToolCallFromSchemaPayload lib payload "" (some names)).isNone
  | _ => false

/-- The set holds one tool, `submit_output`, but only behind a wrapper prefix such as `tool.`. -/
def wrapsSubmitOutput (names : List String) : Prop :=
  isSubmitOutputOnlyAllowed lib (some names) = true ∧ "submit_output" ∉ names

def resolves (names : List String) (request : ToolRequest) : Option String :=
  resolveAllowedToolName lib.toTextLibrary request.1 (some names) request.2

/-- The calls are the answers to the allowed requests, and `submit_output` for bare payloads. -/
structure Answers (names : List String) (requests : List ToolRequest) (payloads : List Json)
    (calls : List ProviderToolCall) : Prop where
  sound : ∀ call ∈ calls, (∃ request ∈ requests, resolves lib names request = some call.name) ∨
    call.name = "submit_output" ∧ isSubmitOutputOnlyAllowed lib (some names) = true ∧
      ∃ payload ∈ payloads, isBarePayload lib names payload = true
  answered : ∀ request ∈ requests, resolves lib names request ≠ none → calls ≠ []
  submitted : isSubmitOutputOnlyAllowed lib (some names) = true → ∀ payload ∈ payloads,
    isBarePayload lib names payload = true → ∃ call ∈ calls, call.name = "submit_output"

variable {lib} {names : List String}

theorem answers_of_forms {ρ : Type} {asks : ρ → List ToolRequest} {answer : ρ → Option String}
    (hsound : ∀ r name, answer r = some name → ∃ request ∈ asks r, resolves lib names request = some name)
    (hanswered : ∀ r, ∀ request ∈ asks r, resolves lib names request ≠ none → answer r ≠ none)
    {forms : List (List ρ)} {calls : List ProviderToolCall}
    (h : calls.map (·.name) = firstNonempty (forms.map fun form => form.filterMap answer)) :
    Answers lib names (forms.flatten.flatMap asks) [] calls where
  sound call hcall := by
    have hname : call.name ∈ calls.map (·.name) := List.mem_map_of_mem hcall
    rw [h] at hname
    obtain ⟨before, form, after, rfl, _, hmem⟩ := mem_firstNonempty hname
    obtain ⟨r, hr, hanswer⟩ := List.mem_filterMap.mp hmem
    obtain ⟨request, hrequest, hresolves⟩ := hsound r _ hanswer
    refine .inl ⟨request, List.mem_flatMap.mpr ⟨r, ?_, hrequest⟩, hresolves⟩
    exact List.mem_flatten.mpr ⟨form, by simp, hr⟩
  answered request hrequest hresolves := by
    obtain ⟨r, hr, hask⟩ := List.mem_flatMap.mp hrequest
    obtain ⟨form, hform, hr⟩ := List.mem_flatten.mp hr
    obtain ⟨name, hname⟩ := Option.ne_none_iff_exists'.mp (hanswered r request hask hresolves)
    have hne : form.filterMap answer ≠ [] := List.ne_nil_of_mem (List.mem_filterMap.mpr ⟨r, hr, hname⟩)
    have hfirst := firstNonempty_ne_nil (List.mem_map_of_mem hform) hne
    rintro rfl
    exact hfirst h.symm
  submitted _ payload hpayload := by cases hpayload

theorem answers_of_requests {forms : List (List ToolRequest)} {calls : List ProviderToolCall}
    (h : calls.map (·.name) = firstNonempty (forms.map fun form => form.filterMap (resolves lib names))) :
    Answers lib names forms.flatten [] calls := by
  have hanswers : Answers lib names (forms.flatten.flatMap fun request => [request]) [] calls :=
    answers_of_forms (by simp) (by simp) h
  simpa using hanswers

theorem filterMap_names {ι : Type} {call : ι → Option ProviderToolCall} {ask : ι → Option ToolRequest}
    (h : ∀ i, (call i).map (·.name) = (ask i).bind (resolves lib names)) (items : List ι) :
    (items.filterMap call).map (·.name) = (items.filterMap ask).filterMap (resolves lib names) := by
  rw [List.map_filterMap, List.filterMap_filterMap]
  exact List.filterMap_congr fun i _ => h i

theorem foldl_names {σ ι : Type} {step : σ × List ProviderToolCall → ι → σ × List ProviderToolCall}
    {answer : ι → Option String}
    (h : ∀ state i, (step state i).2.map (·.name) = state.2.map (·.name) ++ (answer i).toList)
    (items : List ι) (state : σ × List ProviderToolCall) :
    (items.foldl step state).2.map (·.name) = state.2.map (·.name) ++ items.filterMap answer := by
  induction items generalizing state with
  | nil => simp
  | cons i items ih =>
    rw [List.foldl_cons, ih, h, List.append_assoc]
    cases hanswer : answer i <;> simp [hanswer]

theorem retry_names {σ : Type} {loop : σ × List ProviderToolCall → σ × List ProviderToolCall} {found : List String}
    (h : ∀ state, (loop state).2.map (·.name) = state.2.map (·.name) ++ found) (state : σ × List ProviderToolCall) :
    (if state.2.isEmpty then loop state else state).2.map (·.name) = firstNonempty [state.2.map (·.name), found] := by
  obtain ⟨s, calls⟩ := state
  cases calls with
  | nil =>
    rw [if_pos List.isEmpty_nil, h]
    exact (firstNonempty_singleton found).symm
  | cons call calls => rfl

theorem nativeCall_name (id : String) (function : Dict) :
    (nativeCall lib (some names) id function).map (·.name) = resolves lib names (functionRequest lib function) := by
  simp [nativeCall, resolves, functionRequest, Function.comp_def]

theorem nativeItem_name (item : Json) :
    (nativeItem lib (some names) item).map (·.name) = (nativeItemRequest lib item).bind (resolves lib names) := by
  simp only [nativeItem, nativeItemRequest, Option.map_bind, Function.comp_def, nativeCall_name, Option.bind_assoc,
    Option.bind_map]

theorem functionCall_name (functionCall : Option Dict) :
    ((functionCall.bind (nativeCall lib (some names) "")).toList).map (·.name) =
      (functionCall.toList.map (functionRequest lib)).filterMap (resolves lib names) := by
  cases functionCall with
  | none => rfl
  | some function =>
    have hname := @nativeCall_name lib names "" function
    rw [Option.bind_some]
    cases hcall : nativeCall lib (some names) "" function <;> simp [← hname, hcall]

theorem native_answers {allowed : List String} (hnames : normalizeAllowedToolNames (some allowed) = some names)
    (messagePayload : Json) :
    Answers lib names (nativeForms lib messagePayload).flatten [] (parseNative lib messagePayload (some allowed)).calls := by
  apply answers_of_requests
  cases hmessage : asDict messagePayload with
  | none => simp [parseNative, nativeForms, hmessage, firstNonempty]
  | some message =>
    simp only [parseNative, nativeForms, hmessage, hnames, List.map_cons, List.map_nil, firstNonempty]
    rw [← filterMap_names nativeItem_name, ← functionCall_name, List.isEmpty_map]
    cases ((asList (Dict.get message "tool_calls")).getD []).filterMap (nativeItem lib (some names)) with
    | cons call calls => rfl
    | nil => cases (asDict (Dict.get message "function_call")).bind (nativeCall lib (some names) "") <;> rfl

theorem fallbackCall_name (name : String) (arguments resolving : Dict) :
    (fallbackCall lib (some names) name arguments resolving).map (·.name) = resolves lib names (name, resolving) := by
  simp [fallbackCall, resolves, Function.comp_def]

theorem answers_of_list {requests : List ToolRequest} {calls : List ProviderToolCall}
    (h : calls.map (·.name) = requests.filterMap (resolves lib names)) : Answers lib names requests [] calls := by
  have hanswers : Answers lib names [requests].flatten [] calls := by
    apply answers_of_requests
    rw [List.map_singleton, firstNonempty_singleton]
    exact h
  simpa using hanswers

variable {allowed : List String}

theorem cliCommand_answers (hnames : normalizeAllowedToolNames (some allowed) = some names) (raw : String) :
    Answers lib names (textRequests lib .cliCommand raw) [] (parseCliCommand lib raw (some allowed)).calls := by
  apply answers_of_list
  simp only [parseCliCommand, textRequests, hnames]
  cases lib.search .cliToolCommand (strip raw) with
  | none => rfl
  | some command =>
    have hname := @fallbackCall_name lib names (strip (command.group "name"))
      (coerceToolArguments lib (.str (command.group "args"))) (coerceToolArguments lib (.str (command.group "args")))
    dsimp only
    rw [Option.toList_some, List.map_singleton, List.filterMap_cons, ← hname]
    cases fallbackCall lib (some names) (strip (command.group "name"))
      (coerceToolArguments lib (.str (command.group "args"))) (coerceToolArguments lib (.str (command.group "args"))) <;> rfl

theorem toolDirective_answers (hnames : normalizeAllowedToolNames (some allowed) = some names) (raw : String) :
    Answers lib names (textRequests lib .toolDirective raw) [] (parseToolDirective lib raw (some allowed)).calls := by
  apply answers_of_list
  simp only [parseToolDirective, textRequests, hnames]
  split
  · rfl
  · cases lib.search .toolLine (strip raw) with
    | none => rfl
    | some directive =>
      dsimp only
      rw [Option.toList_some, List.map_singleton, List.filterMap_cons]
      generalize directiveArgs lib false [] (splitlines [] ((strip raw).toList.drop directive.stop)) = args
      have hname := @fallbackCall_name lib names (strip (directive.group "name")) args args
      rw [← hname]
      cases fallbackCall lib (some names) (strip (directive.group "name")) args args <;> rfl

theorem minimaxBracket_answers (hnames : normalizeAllowedToolNames (some allowed) = some names) (raw : String) :
    Answers lib names (textRequests lib .minimaxBracket raw) [] (parseMinimaxBracket lib raw (some allowed)).calls := by
  apply answers_of_list
  simp only [parseMinimaxBracket, textRequests, hnames]
  generalize (lib.finditer .minimaxBracketToolCall (strip raw)).filterMap (bracketRequest lib) = requests
  have hparsed : (requests.filterMap fun request => fallbackCall lib (some names) request.1 request.2 request.2).map (·.name) =
      requests.filterMap (resolves lib names) := by
    rw [List.map_filterMap]
    exact List.filterMap_congr fun request _ => fallbackCall_name request.1 request.2 request.2
  rw [← hparsed]
  generalize (requests.filterMap fun request => fallbackCall lib (some names) request.1 request.2 request.2) = parsed at hparsed ⊢
  cases requests with
  | nil =>
    rw [List.filterMap_nil] at hparsed
    rw [hparsed]
    rfl
  | cons request requests =>
    cases parsed with
    | nil =>
      dsimp only
      split <;> rfl
    | cons call parsed => rfl

theorem envelopeCall_names (wrappers : List String) (state : EnvelopeState) (metadata : Dict) (name jsonArgs : String) :
    (envelopeCall lib (some names) wrappers state metadata name jsonArgs).2.map (·.name) =
      state.2.map (·.name) ++ ((envelopeRequest lib wrappers name jsonArgs).bind (resolves lib names)).toList := by
  simp only [envelopeCall, envelopeRequest]
  cases asDict (decodeJson lib jsonArgs) with
  | none => simp
  | some args =>
    dsimp only [Option.bind_some]
    split
    · simp
    · have hname := @fallbackCall_name lib names name args []
      rw [Option.bind_some, ← hname]
      cases fallbackCall lib (some names) name args [] <;> simp

theorem envelopeStep_names (state : EnvelopeState) (found : Match) :
    (envelopeStep lib (some names) state found).2.map (·.name) =
      state.2.map (·.name) ++ ((channelRequest lib found).bind (resolves lib names)).toList := by
  simp only [envelopeStep, channelRequest]
  rw [envelopeCall_names]

theorem envelopeGenericStep_names (state : EnvelopeState) (found : Match) :
    (envelopeGenericStep lib (some names) state found).2.map (·.name) =
      state.2.map (·.name) ++ ((genericRequest lib found).bind (resolves lib names)).toList := by
  simp only [envelopeGenericStep, genericRequest]
  split
  · simp
  · exact envelopeCall_names _ state _ _ _

theorem envelope_answers (hnames : normalizeAllowedToolNames (some allowed) = some names) (raw : String) :
    Answers lib names (textRequests lib .openrouterEnvelope raw) [] (parseEnvelope lib raw (some allowed)).calls := by
  apply answers_of_requests
  simp only [parseEnvelope, envelopeForms, hnames, List.map_cons, List.map_nil, List.filterMap_filterMap]
  generalize hfirst : (lib.finditer .channelEnvelope (strip raw)).foldl (envelopeStep lib (some names))
    ([("fallback_parse_mode", .str "channel_envelope")], []) = first
  have hnamesFirst := foldl_names (@envelopeStep_names lib names)
    (lib.finditer .channelEnvelope (strip raw)) ([("fallback_parse_mode", .str "channel_envelope")], [])
  rw [hfirst, List.map_nil, List.nil_append] at hnamesFirst
  rw [← hnamesFirst, ← retry_names (foldl_names envelopeGenericStep_names _) first]
  generalize (if first.2.isEmpty then (lib.finditer .channelEnvelopeGeneric (strip raw)).foldl
    (envelopeGenericStep lib (some names)) first else first) = final
  obtain ⟨metadata, calls⟩ := final
  cases calls with
  | cons call calls => rfl
  | nil =>
    dsimp only
    rw [if_neg (by simp)]
    split <;> rfl

def xmlAnswer (lib : ParserLibrary) (names : List String) (request : XmlRequest) : Option String :=
  ((wrappedRequest lib (some names) request).map (·.1)).or (resolves lib names (request.name, []))

theorem xmlStep_names (state : XmlState) (request : XmlRequest) :
    (xmlStep lib (some names) state request).2.map (·.name) =
      state.2.map (·.name) ++ (xmlAnswer lib names request).toList := by
  simp only [xmlStep, xmlAnswer, resolves]
  cases hwrapped : wrappedRequest lib (some names) request with
  | some wrapped => simp
  | none => cases resolveAllowedToolName lib.toTextLibrary request.name (some names) [] <;> simp

theorem resolveToolUseWrapper_name (args : Dict) :
    (resolveToolUseWrapper lib args (some names)).map (·.1) = resolves lib names (wrappedName lib args, []) := by
  simp only [resolveToolUseWrapper, resolves]
  split
  · next hempty =>
    have hstrip : strip "" = "" := by decide
    rw [hempty, resolveAllowedToolName, if_pos hstrip]
    rfl
  · simp [Function.comp_def]

theorem xmlAnswer_eq (request : XmlRequest) : xmlAnswer lib names request =
    if isToolUseWrapper lib request then
      (resolves lib names (wrappedName lib request.arguments, [])).or (resolves lib names (request.name, []))
    else resolves lib names (request.name, []) := by
  rw [xmlAnswer, wrappedRequest]
  split
  · rw [resolveToolUseWrapper_name]
  · rfl

theorem xmlAnswer_sound (request : XmlRequest) (name : String) (h : xmlAnswer lib names request = some name) :
    ∃ asked ∈ xmlRequests lib request, resolves lib names asked = some name := by
  rw [xmlAnswer_eq] at h
  rw [xmlRequests]
  split at h
  · next hwrapper =>
    rw [if_pos hwrapper]
    rcases Option.or_eq_some_iff.mp h with hinner | ⟨_, houter⟩
    · exact ⟨_, by simp, hinner⟩
    · exact ⟨_, by simp, houter⟩
  · exact ⟨_, by simp, h⟩

theorem xmlAnswer_ne_none (request : XmlRequest) (asked : ToolRequest) (hasked : asked ∈ xmlRequests lib request)
    (h : resolves lib names asked ≠ none) : xmlAnswer lib names request ≠ none := by
  rw [xmlAnswer_eq]
  rw [xmlRequests] at hasked
  split at hasked
  · next hwrapper =>
    rw [if_pos hwrapper, Ne, Option.or_eq_none_iff]
    rintro ⟨hinner, houter⟩
    simp only [List.mem_cons, List.not_mem_nil, or_false] at hasked
    rcases hasked with rfl | rfl
    · exact h houter
    · exact h hinner
  · next hwrapper =>
    rw [if_neg hwrapper]
    rw [List.mem_singleton.mp hasked] at h
    exact h

theorem xmlForms_names (forms : List (List XmlRequest)) (state : XmlState) :
    (forms.foldl (fun state requests => if state.2.isEmpty then requests.foldl (xmlStep lib (some names)) state else state)
      state).2.map (·.name) =
      firstNonempty (state.2.map (·.name) :: forms.map fun form => form.filterMap (xmlAnswer lib names)) := by
  induction forms generalizing state with
  | nil => exact (firstNonempty_singleton _).symm
  | cons form forms ih =>
    rw [List.foldl_cons, ih, retry_names (foldl_names xmlStep_names form), firstNonempty_pair_cons, List.map_cons]

theorem minimaxXml_answers (hnames : normalizeAllowedToolNames (some allowed) = some names) (raw : String) :
    Answers lib names (textRequests lib .minimaxXml raw) [] (parseMinimaxXml lib raw (some allowed)).calls := by
  simp only [textRequests, parseMinimaxXml, hnames]
  split
  · exact answers_of_list rfl
  · apply answers_of_forms xmlAnswer_sound xmlAnswer_ne_none
    have hforms := @xmlForms_names lib names (xmlForms lib (strip raw)) (none, [])
    rw [List.map_nil, firstNonempty, if_pos List.isEmpty_nil] at hforms
    rw [← hforms]
    generalize (xmlForms lib (strip raw)).foldl _ _ = final
    obtain ⟨rawName, calls⟩ := final
    cases calls <;> cases rawName <;> rfl

theorem item_name (source : String) (item : Json) :
    (parseToolCallItem lib source (some names) item).map (·.name) = (itemRequest lib item).bind (resolves lib names) := by
  simp only [parseToolCallItem, itemRequest]
  cases asDict item with
  | none => rfl
  | some item => simp [resolves, Function.comp_def]

theorem inferred_name (payload : Dict) (source : String) :
    (inferSingleToolCallFromSchemaPayload lib payload source (some names)).map (·.name) =
      (inferredName payload).bind fun name => resolves lib names (name, payload) := by
  cases hname : inferredName payload with
  | none => simp [inferSingleToolCallFromSchemaPayload, hname]
  | some name => simp [inferSingleToolCallFromSchemaPayload, hname, resolves, Function.comp_def]

theorem inferred_requests (payload : Dict) (source : String) :
    (inferSingleToolCallFromSchemaPayload lib payload source (some names)).toList.map (·.name) =
      ((inferredName payload).toList.map fun name => (name, payload)).filterMap (resolves lib names) := by
  have hname := @inferred_name lib names payload source
  cases hinferred : inferredName payload with
  | none =>
    rw [hinferred, Option.bind_none, Option.map_eq_none_iff] at hname
    rw [hname]
    rfl
  | some name =>
    rw [hinferred, Option.bind_some] at hname
    cases hcall : inferSingleToolCallFromSchemaPayload lib payload source (some names) <;> simp [← hname, hcall]

theorem isNone_inferred (payload : Dict) (source : String) :
    (inferSingleToolCallFromSchemaPayload lib payload "" (some names)).isNone =
      (inferSingleToolCallFromSchemaPayload lib payload source (some names)).isNone := by
  rw [← Option.isNone_map (f := (·.name)), inferred_name, ← inferred_name payload source, Option.isNone_map]

/-- What a payload calls: the answers to its requests, or `submit_output` with the payload. -/
theorem payload_names (payload : Json) (source : String) :
    (toolCallsFromPayload lib payload source (some names)).map (·.name) =
      (payloadRequests lib payload).filterMap (resolves lib names) ++
        if isBarePayload lib names payload && isSubmitOutputOnlyAllowed lib (some names) then ["submit_output"] else [] := by
  have hitems : ∀ items, (parseToolCallItems lib items source (some names)).map (·.name) =
      (items.filterMap (itemRequest lib)).filterMap (resolves lib names) := fun items =>
    filterMap_names (item_name source) items
  cases payload with
  | list items => simpa [toolCallsFromPayload, payloadRequests, isBarePayload] using hitems items
  | dict payload =>
    cases htools : asList (Dict.get payload "tool_calls") with
    | some items => simpa [toolCallsFromPayload, payloadRequests, isBarePayload, htools] using hitems items
    | none =>
      cases hname : hasToolName payload with
      | true =>
        simpa [toolCallsFromPayload, payloadRequests, isBarePayload, htools, hname, itemRequest, asDict] using
          hitems [.dict payload]
      | false =>
        have hrequests := @inferred_requests lib names payload source
        have hnone := @isNone_inferred lib names payload source
        simp only [toolCallsFromPayload, payloadRequests, isBarePayload, htools, hname, hnone, Bool.false_eq_true,
          if_false, ← hrequests]
        cases inferSingleToolCallFromSchemaPayload lib payload source (some names) with
        | some call => simp
        | none => cases isSubmitOutputOnlyAllowed lib (some names) <;> simp
  | null | bool | int | float | nan | inf | str => rfl

def candidateCalls (lib : ParserLibrary) (explicit : Bool) (names : List String) (candidate : String) :
    List ProviderToolCall :=
  if explicit || !hasExplicitToolEnvelope (decodeJson lib candidate) then
    toolCallsFromPayload lib (decodeJson lib candidate) "fallback" (some names)
  else []

theorem jsonStep_calls (explicit : Bool) (state : JsonState) (candidate : String) :
    (jsonStep lib explicit (some names) state candidate).collected = state.collected ++
      (candidateCalls lib explicit names candidate).filter (toolCallKey lib · ∉ state.seenCalls) ∧
    (jsonStep lib explicit (some names) state candidate).seenCalls = state.seenCalls ++
      (candidateCalls lib explicit names candidate).map (toolCallKey lib) := by
  simp only [jsonStep, candidateCalls]
  cases explicit <;> cases hasExplicitToolEnvelope (decodeJson lib candidate) <;>
    cases toolCallsFromPayload lib (decodeJson lib candidate) "fallback" (some names) <;> simp

theorem jsonLoop_calls (explicit : Bool) (candidates : List String) (state : JsonState)
    (hseen : ∀ key ∈ state.seenCalls, ∃ call ∈ state.collected, toolCallKey lib call = key) :
    let final := candidates.foldl (jsonStep lib explicit (some names)) state
    (∀ call ∈ final.collected, call ∈ state.collected ∨ ∃ candidate ∈ candidates, call ∈ candidateCalls lib explicit names candidate) ∧
    (∀ call ∈ state.collected, call ∈ final.collected) ∧
    ∀ candidate ∈ candidates, ∀ call ∈ candidateCalls lib explicit names candidate,
      ∃ kept ∈ final.collected, toolCallKey lib kept = toolCallKey lib call := by
  induction candidates generalizing state with
  | nil => exact ⟨fun call h => .inl h, fun call h => h, nofun⟩
  | cons candidate candidates ih =>
    obtain ⟨hcollected, hkeys⟩ := @jsonStep_calls lib names explicit state candidate
    -- the call itself is collected unless its key was seen
    have hkept : ∀ call ∈ candidateCalls lib explicit names candidate,
        ∃ kept ∈ (jsonStep lib explicit (some names) state candidate).collected, toolCallKey lib kept = toolCallKey lib call := by
      intro call hcall
      rw [hcollected]
      by_cases hmem : toolCallKey lib call ∈ state.seenCalls
      · obtain ⟨kept, hkept, hkey⟩ := hseen _ hmem
        exact ⟨kept, List.mem_append_left _ hkept, hkey⟩
      · exact ⟨call, List.mem_append_right _ (List.mem_filter.mpr ⟨hcall, by simpa using hmem⟩), rfl⟩
    obtain ⟨hfrom, hstays, hall⟩ := ih (jsonStep lib explicit (some names) state candidate) (by
      intro key hkey
      rw [hkeys] at hkey
      rcases List.mem_append.mp hkey with hkey | hkey
      · obtain ⟨kept, hkept, hkey⟩ := hseen key hkey
        exact ⟨kept, by rw [hcollected]; exact List.mem_append_left _ hkept, hkey⟩
      · obtain ⟨call, hcall, rfl⟩ := List.mem_map.mp hkey
        exact hkept call hcall)
    refine ⟨?_, ?_, ?_⟩
    · intro call hcall
      rcases hfrom call hcall with hcall | ⟨found, hfound, hcall⟩
      · rw [hcollected] at hcall
        rcases List.mem_append.mp hcall with hcall | hcall
        · exact .inl hcall
        · exact .inr ⟨candidate, List.mem_cons_self, (List.mem_filter.mp hcall).1⟩
      · exact .inr ⟨found, List.mem_cons_of_mem _ hfound, hcall⟩
    · intro call hcall
      apply hstays
      rw [hcollected]
      exact List.mem_append_left _ hcall
    · rintro found (_ | ⟨_, hfound⟩) call hcall
      · obtain ⟨kept, hkept, hkey⟩ := hkept call hcall
        exact ⟨kept, hstays kept hkept, hkey⟩
      · exact hall found hfound call hcall

theorem parseJsonFallback_calls (hnames : normalizeAllowedToolNames (some allowed) = some names) (explicit : Bool)
    (raw : String) : (parseJsonFallback lib explicit raw (some allowed)).calls =
      ((uniqueCandidates lib raw).foldl (jsonStep lib explicit (some names))
        ⟨[("fallback_parse_mode", .str "json_payload")], [], []⟩).collected := by
  simp only [parseJsonFallback, hnames]
  generalize (uniqueCandidates lib raw).foldl _ _ = final
  obtain ⟨metadata, collected, seenCalls⟩ := final
  cases collected <;> rfl

theorem mem_json_names (hnames : normalizeAllowedToolNames (some allowed) = some names) (explicit : Bool) (raw name : String) :
    (∃ call ∈ (parseJsonFallback lib explicit raw (some allowed)).calls, call.name = name) ↔
      ∃ payload ∈ readPayloads lib explicit raw,
        name ∈ (toolCallsFromPayload lib payload "fallback" (some names)).map (·.name) := by
  rw [parseJsonFallback_calls hnames]
  obtain ⟨hfrom, -, hall⟩ := @jsonLoop_calls lib names explicit (uniqueCandidates lib raw)
    ⟨[("fallback_parse_mode", .str "json_payload")], [], []⟩ nofun
  constructor
  · rintro ⟨call, hcall, rfl⟩
    rcases hfrom call hcall with hnil | ⟨candidate, hcandidate, hcall⟩
    · cases hnil
    · rw [candidateCalls] at hcall
      split at hcall
      · next hread =>
        exact ⟨decodeJson lib candidate, List.mem_filter.mpr ⟨List.mem_map_of_mem hcandidate, hread⟩,
          List.mem_map_of_mem hcall⟩
      · cases hcall
  · rintro ⟨payload, hpayload, hname⟩
    obtain ⟨hmem, hread⟩ := List.mem_filter.mp hpayload
    obtain ⟨candidate, hcandidate, rfl⟩ := List.mem_map.mp hmem
    obtain ⟨call, hcall, rfl⟩ := List.mem_map.mp hname
    obtain ⟨kept, hkept, hkey⟩ := hall candidate hcandidate call (by rw [candidateCalls, if_pos hread]; exact hcall)
    exact ⟨kept, hkept, congrArg (·.2.1) hkey⟩

theorem json_answers (hnames : normalizeAllowedToolNames (some allowed) = some names) (explicit : Bool) (raw : String) :
    Answers lib names ((readPayloads lib explicit raw).flatMap (payloadRequests lib)) (readPayloads lib explicit raw)
      (parseJsonFallback lib explicit raw (some allowed)).calls where
  sound call hcall := by
    obtain ⟨payload, hpayload, hname⟩ := (mem_json_names hnames explicit raw call.name).mp ⟨call, hcall, rfl⟩
    rw [payload_names] at hname
    rcases List.mem_append.mp hname with hname | hname
    · obtain ⟨request, hrequest, hresolves⟩ := List.mem_filterMap.mp hname
      exact .inl ⟨request, List.mem_flatMap.mpr ⟨payload, hpayload, hrequest⟩, hresolves⟩
    · split at hname
      · next hbare =>
        rw [Bool.and_eq_true] at hbare
        exact .inr ⟨List.mem_singleton.mp hname, hbare.2, payload, hpayload, hbare.1⟩
      · cases hname
  answered request hrequest hresolves := by
    obtain ⟨payload, hpayload, hrequest⟩ := List.mem_flatMap.mp hrequest
    obtain ⟨name, hname⟩ := Option.ne_none_iff_exists'.mp hresolves
    obtain ⟨call, hcall, -⟩ := (mem_json_names hnames explicit raw name).mpr ⟨payload, hpayload, by
      rw [payload_names]
      exact List.mem_append_left _ (List.mem_filterMap.mpr ⟨request, hrequest, hname⟩)⟩
    exact List.ne_nil_of_mem hcall
  submitted honly payload hpayload hbare := by
    refine (mem_json_names hnames explicit raw "submit_output").mpr ⟨payload, hpayload, ?_⟩
    rw [payload_names, hbare, honly]
    simp

theorem source_answers (hnames : normalizeAllowedToolNames (some allowed) = some names) (source : Source) :
    Answers lib names (source.requests lib) (source.payloads lib) (source.calls lib (some allowed)) := by
  cases source with
  | native messagePayload => exact native_answers hnames messagePayload
  | text parser raw =>
    cases parser with
    | openaiNative => exact answers_of_list rfl
    | minimaxXml => exact minimaxXml_answers hnames raw
    | minimaxBracket => exact minimaxBracket_answers hnames raw
    | cliCommand => exact cliCommand_answers hnames raw
    | toolDirective => exact toolDirective_answers hnames raw
    | jsonFallback => exact json_answers hnames true raw
    | jsonSchema => exact json_answers hnames false raw
    | openrouterEnvelope => exact envelope_answers hnames raw

end

inductive Entry where
  | native (messagePayload : Json)
  | fallback (text : String) (selection : List String)
  | structured (text : String) (selection : List String)
  | precedence (messagePayload : Json) (sources : List ToolCallFallbackSource) (fallbackEnabled : Bool)
    (selection : List String) (fallbackParserPolicy fallbackMode : String)

section
variable (lib : ParserLibrary)

def Entry.calls (allowed : Option (List String)) : Entry → List ProviderToolCall
  | .native messagePayload => (parseNativeToolCalls lib messagePayload allowed).calls
  | .fallback text selection => (parseFallbackToolCalls lib text allowed selection).calls
  | .structured text selection => (parseStructuredToolCallEnvelopes lib text allowed selection).calls
  | .precedence messagePayload sources enabled selection policy mode =>
    (resolveToolCallSourcePrecedence lib messagePayload sources allowed enabled selection policy mode).calls

def handlers (structured : Bool) (selection : List String) : List Parser :=
  if structured then textHandlers structuredModelHandlers selection
  else providerHandlers selection ++ textHandlers modelHandlers selection

def Entry.sources : Entry → List Source
  | .native messagePayload => [.native messagePayload]
  | .fallback text selection => (handlers false selection).map (.text · text)
  | .structured text selection => (handlers true selection).map (.text · text)
  | .precedence messagePayload sources enabled selection policy mode =>
    .native messagePayload :: if enabled then (normalizeFallbackSources sources).flatMap fun candidate =>
      (handlers (structuredMode lib policy mode) selection).map (.text · candidate.text) else []

variable {lib} {allowed : Option (List String)}

theorem tryHandlers_calls (raw : String) (collected : Dict) (parsers : List Parser) :
    (tryHandlers lib raw allowed collected parsers).calls =
      firstNonempty ((parsers.map (Source.text · raw)).map (Source.calls lib allowed)) := by
  induction parsers generalizing collected with
  | nil => rfl
  | cons parser parsers ih =>
    rw [tryHandlers, List.map_cons, List.map_cons, firstNonempty, ← ih]
    rw [apply_ite ToolCallParseResult.calls]
    rfl

theorem parseSource_calls (structured : Bool) (raw : String) (selection : List String) :
    (parseSource lib structured raw allowed selection).calls =
      firstNonempty (((handlers structured selection).map (Source.text · raw)).map (Source.calls lib allowed)) := by
  cases structured <;> exact tryHandlers_calls raw [] _

theorem resolveFallbackSources_calls (structured : Bool) (selection attempted : List String) (collected : Dict)
    (candidates : List ToolCallFallbackSource) :
    (resolveFallbackSources lib structured allowed selection attempted collected candidates).calls =
      firstNonempty ((candidates.flatMap fun candidate => (handlers structured selection).map (Source.text · candidate.text)).map
        (Source.calls lib allowed)) := by
  induction candidates generalizing attempted collected with
  | nil => rfl
  | cons candidate candidates ih =>
    rw [resolveFallbackSources, List.flatMap_cons, List.map_append, firstNonempty_append, ← parseSource_calls,
      ← ih (attempted ++ [candidate.source]) (update collected (parseSource lib structured candidate.text allowed selection).metadata)]
    rw [apply_ite ToolCallSourceResolution.calls]

theorem parseNativeToolCalls_calls (messagePayload : Json) :
    (parseNativeToolCalls lib messagePayload allowed).calls = Source.calls lib allowed (.native messagePayload) := by
  rw [parseNativeToolCalls]
  simp only [Source.calls]
  split
  · next hempty => exact (List.isEmpty_iff.mp hempty).symm
  · rfl

theorem entry_calls (names : List String) (entry : Entry) :
    entry.calls lib (some names) = firstNonempty ((entry.sources lib).map (Source.calls lib (some names))) := by
  cases entry with
  | native messagePayload => exact (parseNativeToolCalls_calls messagePayload).trans (firstNonempty_singleton _).symm
  | fallback text selection => exact parseSource_calls false text selection
  | structured text selection => exact parseSource_calls true text selection
  | precedence messagePayload sources enabled selection policy mode =>
    simp only [Entry.calls, Entry.sources, resolveToolCallSourcePrecedence, Option.getD_some, List.map_cons, firstNonempty,
      parseNativeToolCalls_calls]
    cases hcalls : Source.calls lib (some names) (.native messagePayload) with
    | cons call calls => rfl
    | nil =>
      cases enabled with
      | false => rfl
      | true => exact resolveFallbackSources_calls _ selection [] [] _

end

def allowedSet (allowed : List String) : List String := (normalizeAllowedToolNames (some allowed)).getD []

theorem normalized_allowedSet (allowed : List String) : Normalized (allowedSet allowed) := normalized_names rfl

def asksFamily (lib : ParserLibrary) (request : ToolRequest) : Bool :=
  namesFamilyOperation lib.toTextLibrary request.1 request.2

/-- With nothing allowed no request is for an operation of a family, and no payload without a name is read before an
allowed one where `submit_output` is only allowed behind a prefix. -/
structure KeepsToAllowed (lib : ParserLibrary) (names : List String) (sources : List Source) : Prop where
  families : names = [] → ∀ source ∈ sources, ∀ request ∈ source.requests lib, asksFamily lib request = false
  bare : wrapsSubmitOutput lib names → ∀ (before : List Source) (source : Source) (after : List Source), sources = before ++ source :: after →
    (∀ earlier ∈ before, ∀ request ∈ earlier.requests lib, resolves lib names request = none) →
    ∀ payload ∈ source.payloads lib, isBarePayload lib names payload = false

section
variable {lib : ParserLibrary} {names allowed : List String}

theorem resolves_permitted (hnormal : Normalized names) {request : ToolRequest} {name : String}
    (hallowed : names = [] → asksFamily lib request = false) (h : resolves lib names request = some name) :
    Permitted lib.toTextLibrary names name := by
  by_cases hne : names = []
  · subst hne
    have hfamily := @resolveAllowedToolName_nil lib.toTextLibrary request.1 request.2
    rw [resolves] at h
    rw [h] at hfamily
    exact absurd (hallowed rfl) (by simp [asksFamily, ← hfamily])
  · exact resolveAllowedToolName_permitted hnormal hne h

theorem KeepsToAllowed.permitted (hnormal : Normalized names) {sources : List Source}
    (hanswers : ∀ source ∈ sources, Answers lib names (source.requests lib) (source.payloads lib)
      (source.calls lib (some allowed)))
    (h : KeepsToAllowed lib names sources) {call : ProviderToolCall}
    (hcall : call ∈ firstNonempty (sources.map (Source.calls lib (some allowed)))) :
    Permitted lib.toTextLibrary names call.name := by
  obtain ⟨before, source, after, rfl, hbefore, hmem⟩ := mem_firstNonempty hcall
  have hsource : source ∈ before ++ source :: after := by simp
  rcases (hanswers source hsource).sound call hmem with ⟨request, hrequest, hresolves⟩ | ⟨hname, honly, payload, hpayload, hbare⟩
  · exact resolves_permitted hnormal (fun hnil => h.families hnil source hsource request hrequest) hresolves
  · rw [hname]
    by_contra hnot
    have hwraps : wrapsSubmitOutput lib names := ⟨honly, fun hin => hnot (permitted_submitOutput.mpr hin)⟩
    refine Bool.eq_false_iff.mp (h.bare hwraps before source after rfl ?_ payload hpayload) hbare
    intro earlier hearlier request hrequest
    by_contra hresolves
    have hcalls := (hanswers earlier (by simp [hearlier])).answered request hrequest hresolves
    exact hcalls (hbefore earlier hearlier)

end

theorem keepsToAllowed_of_permitted {lib : ParserLibrary} {allowed : List String} {entry : Entry}
    (h : ∀ call ∈ entry.calls lib (some allowed), Permitted lib.toTextLibrary (allowedSet allowed) call.name) :
    KeepsToAllowed lib (allowedSet allowed) (entry.sources lib) := by
  have hanswers := fun source => @source_answers lib (allowedSet allowed) allowed rfl source
  rw [entry_calls] at h
  refine ⟨?_, ?_⟩
  · intro hnil source hsource request hrequest
    by_contra hfamily
    have hresolves : resolves lib (allowedSet allowed) request ≠ none := by
      rw [hnil, resolves, ← Option.isSome_iff_ne_none, resolveAllowedToolName_nil]
      simpa [asksFamily] using hfamily
    have hcalls := (hanswers source).answered request hrequest hresolves
    obtain ⟨call, hcall⟩ := List.exists_mem_of_ne_nil _
      (firstNonempty_ne_nil (List.mem_map_of_mem (f := Source.calls lib (some allowed)) hsource) hcalls)
    have hpermitted := h call hcall
    rw [hnil] at hpermitted
    exact not_permitted_nil _ hpermitted
  · intro hwraps before source after hsources hearlier payload hpayload
    by_contra hbare
    obtain ⟨submitted, hsubmitted, hname⟩ := (hanswers source).submitted hwraps.1 payload hpayload (by simpa using hbare)
    have hnot : ∀ call : ProviderToolCall, call.name = "submit_output" →
        ¬ Permitted lib.toTextLibrary (allowedSet allowed) call.name := by
      intro call hcall hpermitted
      rw [hcall] at hpermitted
      exact hwraps.2 (permitted_submitOutput.mp hpermitted)
    rw [hsources, List.map_append, firstNonempty_append] at h
    split at h
    · -- nothing was called before: the source's own calls are returned
      refine hnot submitted hname (h submitted ?_)
      have hne := List.isEmpty_eq_false_iff.mpr (List.ne_nil_of_mem hsubmitted)
      rw [List.map_cons, firstNonempty, hne, if_neg Bool.false_ne_true]
      exact hsubmitted
    · next hne =>
      obtain ⟨call, hcall⟩ := List.exists_mem_of_ne_nil _ (by simpa using hne)
      obtain ⟨_, earlier, _, rfl, _, hmem⟩ := mem_firstNonempty hcall
      rcases (hanswers earlier).sound call hmem with ⟨request, hrequest, hresolves⟩ | ⟨hcallName, -⟩
      · rw [hearlier earlier (by simp) request hrequest] at hresolves
        cases hresolves
      · exact hnot call hcallName (h call hcall)

/-- **Calls stay within the allowed set exactly when no request reaches one of the two ways out.** -/
theorem calls_permitted_iff (lib : ParserLibrary) (allowed : List String) (entry : Entry) :
    (∀ call ∈ entry.calls lib (some allowed), Permitted lib.toTextLibrary (allowedSet allowed) call.name) ↔
      KeepsToAllowed lib (allowedSet allowed) (entry.sources lib) := by
  constructor
  · exact keepsToAllowed_of_permitted
  · intro h call hcall
    rw [entry_calls] at hcall
    exact h.permitted (normalized_allowedSet allowed) (fun source _ => source_answers rfl source) hcall

def asciiLibrary : ParserLibrary where
  lower := lowerAscii
  lower_ascii _ _ := rfl
  str | .str text => text | _ => ""
  str_str _ := rfl
  finditer _ _ := []
  loads _ := .error 0
  rawDecode _ := none
  unescape text := text
  repr _ := ""

/-- A message with one native call of the family `file`. -/
def familyMessage : Json := .dict [("tool_calls", .list [.dict [("function", .dict [
  ("name", .str "file"), ("arguments", .dict [("path", .str "notes.txt"), ("content", .str "text")])])]])]

def familyArguments : Dict := [("path", .str "notes.txt"), ("content", .str "text")]

theorem familyArguments_select :
    resolveFamilyWrapperOperationCandidate asciiLibrary.toTextLibrary "file" familyArguments none = some "file.write" := by
  have hfamily : normalizeToolName asciiLibrary.toTextLibrary "file" = "file" := by decide +kernel
  have hoperation : familyOperation asciiLibrary.toTextLibrary "file" familyArguments = "write" := by decide +kernel
  have hne : ¬ ("file" = "" ∨ "write" = "") := by decide
  simp only [resolveFamilyWrapperOperationCandidate, hfamily, hoperation, if_neg hne]
  exact fileWrite_selected

/-- The empty collection allows nothing, and `file.write` is called. -/
theorem empty_set_writes : ¬ ∀ (lib : ParserLibrary) (allowed : List String) (entry : Entry),
    ∀ call ∈ entry.calls lib (some allowed), Permitted lib.toTextLibrary (allowedSet allowed) call.name := by
  intro h
  have hkeeps := keepsToAllowed_of_permitted (h asciiLibrary [] (.native familyMessage))
  have hfamily := hkeeps.families rfl (.native familyMessage) List.mem_cons_self
    ("file", familyArguments) (List.mem_singleton.mpr rfl)
  have hstrip : strip "file" = "file" := by decide
  have hselects : asksFamily asciiLibrary ("file", familyArguments) = true := by
    simp [asksFamily, namesFamilyOperation, hstrip, familyArguments_select]
  rw [hselects] at hfamily
  cases hfamily

end OpenMinion.AllowedToolCalls
