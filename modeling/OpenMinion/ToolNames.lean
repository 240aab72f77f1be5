import OpenMinion.JsonValues
import OpenMinion.PythonText
import Mathlib.Data.List.Dedup

/-!
# Names of model tools and the allowed set

`_canonical_model_tool_id`, the family wrappers and `_resolve_allowed_tool_name`, through
which every parser of tool calls passes the names that a model asks for.
-/
namespace OpenMinion.ToolNames
open JsonValues PythonText

def lowerAscii (text : String) : String := String.ofList (text.toList.map Char.toLower)

/-- What the parsers use of Python's `str`: `lower` beyond ASCII follows the Unicode tables. -/
structure TextLibrary where
  lower : String → String
  lower_ascii : ∀ text : String, text.toList.all (·.toNat < 128) = true → lower text = lowerAscii text
  /-- `str(value)` of a decoded value. -/
  str : Json → String
  str_str : ∀ text, str (.str text) = text

def allModelToolIds : List String := [
  "file.list_dir", "file.read", "file.read_range", "file.write", "file.find", "file.trash",
  "file.search", "file.edit", "code.patch", "code.grep", "code.repo_map", "code.repo_index",
  "code.symbol_find", "tool.list", "tool.get", "tool.author", "tool.inspect", "tool.register",
  "exec.run", "exec.poll", "exec.kill", "exec.list", "exec.clear", "exec.paste", "exec.send_keys",
  "exec.submit", "web.search", "web.fetch", "weather", "time", "location", "host.metrics",
  "host.inventory_report", "ip.public", "ip.local", "browser", "blockchain.inspect",
  "blockchain.debug", "blockchain.resolve_contract", "blockchain.prepare_transaction",
  "blockchain.send_transaction", "commerce.inspect", "commerce.prepare_order",
  "commerce.place_order", "commerce.prepare_order_action", "commerce.apply_order_action",
  "ops.target.list", "ops.target.inspect", "ops.host.snapshot", "ops.service.inspect",
  "ops.logs.query", "ops.network.inspect", "ops.process.inspect", "ops.network.port_owner",
  "ops.command.observe", "ops.file.read", "ops.command.plan", "ops.command.run", "ops.job.inspect",
  "ops.job.cancel", "cloud.ssm.inventory", "cloud.ssm.command_status",
  "observability.prometheus.rules", "observability.prometheus.alerts",
  "observability.prometheus.query", "observability.otel.trace", "k8s.workload.get",
  "k8s.workload.list", "k8s.events.list", "k8s.logs.get", "k8s.rollout.status", "iac.validate",
  "iac.plan.create", "iac.plan.show", "iac.provider.facts", "gitops.app.status", "gitops.app.diff",
  "gitops.source.revision", "gitops.drift.inspect", "config.ansible.check", "config.ansible.facts",
  "config.salt.test", "config.salt.job_status", "security.scan_code", "security.scan_dependencies",
  "security.scan_artifact", "security.scan_secrets", "security.publish_report",
  "security.review_report", "security.scan_snapshot", "security.scan_image",
  "security.evaluate_aws_snapshot", "security.export_sarif", "security.compare_scans", "gws.call",
  "gws.schema", "gws.auth.setup", "gws.auth.login", "gws.auth.export", "skill.ingest",
  "skill.ingest_url", "skill.inspect", "skill.list", "skill.get", "skill.remove", "memory.write",
  "memory.search", "memory.forget", "graph.query", "graph.neighborhood", "graph.refresh",
  "git.status", "git.diff", "git.log", "git.show", "git.blame", "git.branch", "git.checkout",
  "git.add", "git.commit", "git.stash", "git.reset", "git.reflog", "git.fetch", "git.push",
  "git.tag", "plan.set", "plan.add", "plan.update", "plan.complete", "plan.list", "plan.clear",
  "todo.write", "task.schedule", "task.consolidate_memory", "task.watch", "task.cancel",
  "task.list", "task.pause", "task.resume", "task.show", "task.run_now", "task.update",
  "task.delete_history", "task.scheduler_status", "task.scheduler_pause", "task.scheduler_resume",
  "github.list_prs", "github.fetch_pr", "github.fetch_diff", "github.fetch_comments",
  "github.fetch_checks", "github.commit_files", "github.open_pr", "github.update_pr",
  "github.merge_pr", "github.dispatch_workflow", "github.list_workflow_runs",
  "github.create_release", "github.post_pr_review", "github.post_pr_comment", "task.delegate",
  "agent.list", "agent.get"]

def legacyModelToolAliases : List (String × String) := [
  ("search", "web.search"), ("fetch", "web.fetch"), ("exec", "exec.run"),
  ("run_command", "exec.run"), ("lookup_weather", "weather")]

def familyOperationSuffixAliases : List (String × String) := [
  ("ls", "list_dir"), ("list", "list_dir"), ("list_files", "list_dir"), ("read_file", "read"),
  ("read-range", "read_range"), ("delete", "trash"), ("remove", "trash")]

def toolWrapperPrefixes : List String := ["tool.", "tools.", "function.", "functions."]

def startsWith (beginning text : String) : Bool := beginning.toList.isPrefixOf text.toList

/-- `text[count:]`. -/
def dropChars (count : ℕ) (text : String) : String := String.ofList (text.toList.drop count)

/-- The characters `[a-z0-9]`. -/
def isNameChar (c : Char) : Bool := c.isLower || c.isDigit

/-- `re.sub(r"[^a-z0-9]+", "_", ...)`; the flag says that the last character was replaced. -/
def collapseRuns : Bool → List Char → List Char
  | _, [] => []
  | inRun, c :: cs =>
    if isNameChar c then c :: collapseRuns false cs
    else if inRun then collapseRuns true cs
    else '_' :: collapseRuns true cs

def stripUnderscores (cs : List Char) : List Char :=
  (cs.dropWhile (· == '_')).rdropWhile (· == '_')

def onlyMatch : List String → Option String
  | [name] => some name
  | _ => none

theorem mem_of_onlyMatch {names : List String} {name : String} (h : onlyMatch names = some name) : name ∈ names := by
  unfold onlyMatch at h
  split at h
  · cases h
    exact List.mem_singleton_self _
  · cases h

section
variable (lib : TextLibrary)

def normalizeToolName (value : String) : String :=
  String.ofList (stripUnderscores (collapseRuns false (lib.lower value).toList))

/-- `_CANONICAL_MODEL_TOOL_ID_BY_LOWER.get`. -/
def modelToolIdByLower (key : String) : Option String :=
  allModelToolIds.find? fun modelToolId => lib.lower modelToolId == key

def stripToolWrapperPrefix (rawName : String) : String :=
  let token := strip rawName
  let lowered := lib.lower token
  if token = "" ∨ (modelToolIdByLower lib lowered).isSome then token
  else match toolWrapperPrefixes.find? (startsWith · lowered) with
    | some wrapper => strip (dropChars wrapper.length token)
    | none => token

def canonicalModelToolId (rawName : String) : Option String :=
  let token := strip rawName
  if token = "" then none
  else match legacyModelToolAliases.lookup (lib.lower token) with
    | some name => some name
    | none =>
      if token ∈ allModelToolIds then some token
      else match modelToolIdByLower lib (lib.lower token) with
        | some direct => some direct
        | none => onlyMatch (allModelToolIds.filter fun candidate =>
            normalizeToolName lib candidate == normalizeToolName lib token)

/-- `_normalize_allowed_tool_names`. The order in which the set is read is the list's. -/
def normalizeAllowedToolNames (allowedToolNames : Option (List String)) : Option (List String) :=
  allowedToolNames.map fun names => ((names.map strip).filter (· ≠ "")).dedup

def normalizeLegacyOperationToken (rawValue : Json) : String :=
  let token := normalizeToolName lib (strip (if rawValue.truthy then lib.str rawValue else ""))
  (familyOperationSuffixAliases.lookup token).getD token

def inferFamilyWrapperOperationToken (familyName : String) (arguments : Dict) : String :=
  if familyName = "file" ∧ (Dict.has arguments "path" || Dict.has arguments "file_path") ∧ Dict.has arguments "content"
  then "write"
  else ""

def familyOperation (family : String) (arguments : Dict) : String :=
  let opToken := normalizeLegacyOperationToken lib (Dict.get arguments "operation")
  if opToken = "" then inferFamilyWrapperOperationToken family arguments else opToken

/-- `allowed_tool_names or ALL_MODEL_TOOL_IDS_SET`: an empty collection is falsy. -/
def allowedScope : Option (List String) → List String
  | none | some [] => allModelToolIds
  | some names => names

def familyMembers (dottedPrefix : String) (scope : List String) : List String :=
  scope.filterMap fun candidate =>
    let token := strip candidate
    let canonical := (canonicalModelToolId lib token).getD token
    if token ≠ "" ∧ startsWith dottedPrefix canonical then some canonical else none

/-- `_resolve_family_wrapper_operation_candidate`; missing arguments are an empty dictionary. -/
def resolveFamilyWrapperOperationCandidate (familyName : String) (arguments : Dict) (allowed : Option (List String)) :
    Option String :=
  let family := normalizeToolName lib familyName
  let opToken := familyOperation lib family arguments
  if family = "" ∨ opToken = "" then none
  else
    let dottedPrefix := family ++ "."
    onlyMatch ((familyMembers lib dottedPrefix (allowedScope allowed)).filter fun candidate =>
      normalizeToolName lib (dropChars dottedPrefix.length candidate) == opToken)

def resolveCandidate (allowed : Option (List String)) (name : String) : Option String :=
  match canonicalModelToolId lib name, allowed with
  | some canonicalName, none => some canonicalName
  | some canonicalName, some names =>
    if canonicalName ∈ names.filterMap (canonicalModelToolId lib) then some canonicalName else none
  | none, none => none
  | none, some names =>
    match (names.map strip).find? fun candidate => candidate ≠ "" && lib.lower candidate == lib.lower name with
    | some candidate => some candidate
    | none =>
      (onlyMatch ((names.map strip).filter fun candidate =>
        candidate ≠ "" && normalizeToolName lib candidate == normalizeToolName lib name)).map fun only =>
          (canonicalModelToolId lib only).getD only

def resolveAllowedToolName (rawName : String) (allowed : Option (List String)) (arguments : Dict) : Option String :=
  let raw := strip rawName
  let name := stripToolWrapperPrefix lib raw
  if raw = "" then none
  else match resolveCandidate lib allowed raw with
    | some resolved => some resolved
    | none => match resolveFamilyWrapperOperationCandidate lib raw arguments allowed with
      | some resolved => some resolved
      | none =>
        if name = "" ∨ name = raw then none
        else match resolveCandidate lib allowed name with
          | some resolved => some resolved
          | none => resolveFamilyWrapperOperationCandidate lib name arguments allowed

/-- The name is an allowed name or the canonical model tool id of one. -/
def Permitted (names : List String) (name : String) : Prop :=
  ∃ item ∈ names, name = item ∨ canonicalModelToolId lib item = some name

variable {lib}

/-- The names of the set after `_normalize_allowed_tool_names`. -/
def Normalized (names : List String) : Prop := ∀ item ∈ names, strip item = item ∧ item ≠ ""

theorem normalized_names {names set : List String} (h : normalizeAllowedToolNames (some names) = some set) :
    Normalized set := by
  intro item hmem
  cases h
  rw [List.mem_dedup, List.mem_filter, List.mem_map] at hmem
  obtain ⟨⟨name, _, rfl⟩, hne⟩ := hmem
  exact ⟨strip_strip name, by simpa using hne⟩

theorem Normalized.mem_map_strip {names : List String} (h : Normalized names) {name : String}
    (hmem : name ∈ names.map strip) : name ∈ names := by
  obtain ⟨item, hitem, rfl⟩ := List.mem_map.mp hmem
  rw [(h item hitem).1]
  exact hitem

theorem Normalized.permitted_canonical {names : List String} {item : String} (hitem : item ∈ names) :
    Permitted lib names ((canonicalModelToolId lib item).getD item) := by
  refine ⟨item, hitem, ?_⟩
  cases canonicalModelToolId lib item with
  | none => exact .inl rfl
  | some canonical => exact .inr rfl

theorem resolveCandidate_permitted {names : List String} (hnames : Normalized names) {name resolved : String}
    (h : resolveCandidate lib (some names) name = some resolved) : Permitted lib names resolved := by
  unfold resolveCandidate at h
  split at h
  · contradiction
  · next heq =>
    cases heq
    split at h
    · next hmem =>
      cases h
      obtain ⟨item, hitem, hcanonical⟩ := List.mem_filterMap.mp hmem
      exact ⟨item, hitem, .inr hcanonical⟩
    · cases h
  · contradiction
  · next names' _ heq =>
    cases heq
    split at h
    · next hfind =>
      cases h
      exact ⟨resolved, hnames.mem_map_strip (List.mem_of_find?_eq_some hfind), .inl rfl⟩
    · obtain ⟨only, honly, rfl⟩ := Option.map_eq_some_iff.mp h
      exact Normalized.permitted_canonical (hnames.mem_map_strip (List.mem_filter.mp (mem_of_onlyMatch honly)).1)

theorem familyMembers_permitted {names : List String} (hnames : Normalized names) {dottedPrefix member : String}
    (h : member ∈ familyMembers lib dottedPrefix names) : Permitted lib names member := by
  obtain ⟨item, hitem, hmember⟩ := List.mem_filterMap.mp h
  simp only [(hnames item hitem).1] at hmember
  split at hmember
  · cases hmember
    exact Normalized.permitted_canonical hitem
  · cases hmember

theorem familyCandidate_permitted {names : List String} (hnames : Normalized names) (hne : names ≠ [])
    {family resolved : String} {arguments : Dict}
    (h : resolveFamilyWrapperOperationCandidate lib family arguments (some names) = some resolved) :
    Permitted lib names resolved := by
  have hscope : allowedScope (some names) = names := by
    cases names with
    | nil => exact absurd rfl hne
    | cons name rest => rfl
  simp only [resolveFamilyWrapperOperationCandidate, hscope] at h
  split at h
  · cases h
  · exact familyMembers_permitted hnames (List.mem_filter.mp (mem_of_onlyMatch h)).1

theorem resolveAllowedToolName_permitted {names : List String} (hnames : Normalized names) (hne : names ≠ [])
    {raw resolved : String} {arguments : Dict}
    (h : resolveAllowedToolName lib raw (some names) arguments = some resolved) : Permitted lib names resolved := by
  simp only [resolveAllowedToolName] at h
  split at h
  · cases h
  · split at h
    · next hcandidate =>
      cases h
      exact resolveCandidate_permitted hnames hcandidate
    · split at h
      · next hfamily =>
        cases h
        exact familyCandidate_permitted hnames hne hfamily
      · split at h
        · cases h
        · split at h
          · next hcandidate =>
            cases h
            exact resolveCandidate_permitted hnames hcandidate
          · exact familyCandidate_permitted hnames hne h

@[simp] theorem not_permitted_nil (name : String) : ¬ Permitted lib [] name := by
  simp [Permitted]

theorem resolveCandidate_nil (name : String) : resolveCandidate lib (some []) name = none := by
  unfold resolveCandidate
  split <;> simp_all [onlyMatch]

def namesFamilyOperation (lib : TextLibrary) (rawName : String) (arguments : Dict) : Bool :=
  let raw := strip rawName
  let name := stripToolWrapperPrefix lib raw
  let selects (family : String) :=
    (resolveFamilyWrapperOperationCandidate lib family arguments none).isSome
  raw ≠ "" && (selects raw || name ≠ "" && selects name)

theorem resolveAllowedToolName_nil (rawName : String) (arguments : Dict) :
    (resolveAllowedToolName lib rawName (some []) arguments).isSome = namesFamilyOperation lib rawName arguments := by
  have hscope : ∀ family, resolveFamilyWrapperOperationCandidate lib family arguments (some []) =
      resolveFamilyWrapperOperationCandidate lib family arguments none := fun _ => rfl
  simp only [resolveAllowedToolName, namesFamilyOperation, resolveCandidate_nil, hscope]
  by_cases hraw : strip rawName = ""
  · simp [hraw]
  · simp only [hraw, if_false]
    cases hselect : resolveFamilyWrapperOperationCandidate lib (strip rawName) arguments none with
    | some resolved => simp [hraw]
    | none =>
      by_cases hname : stripToolWrapperPrefix lib (strip rawName) = ""
      · simp [hname]
      · by_cases hsame : stripToolWrapperPrefix lib (strip rawName) = strip rawName
        · simp [hsame, hselect]
        · simp [hraw, hname, hsame]

/-- An ASCII character that neither `strip` nor `lower` touches. -/
def isPlainChar (c : Char) : Bool := decide (c.toNat < 128) && !isSpace c && c.toLower == c

theorem cons_ofList {name : String} {names : List String} {cs : List Char} {rest : List (List Char)}
    (h : name = String.ofList cs) (hrest : names = rest.map String.ofList) :
    name :: names = (cs :: rest).map String.ofList := by
  rw [h, hrest, List.map_cons]

/-- The ids as lists of characters, with those of the family `file` that write. -/
theorem modelToolIds_chars : ∃ ids : List (List Char), allModelToolIds = ids.map String.ofList ∧
    (∀ cs ∈ ids, cs.all isPlainChar = true) ∧
    ids.filter (fun cs => "file.".toList.isPrefixOf cs &&
      stripUnderscores (collapseRuns false (cs.drop 5)) == "write".toList) = ["file.write".toList] := by
  apply Exists.intro
  apply And.intro
  · repeat apply cons_ofList (by rfl)
    exact List.map_nil.symm
  · decide +kernel

theorem strip_plain {cs : List Char} (h : cs.all isPlainChar = true) : strip (String.ofList cs) = String.ofList cs := by
  have hspace : ∀ c ∈ cs, isSpace c = false := by
    intro c hc
    have hc := List.all_eq_true.mp h c hc
    simp only [isPlainChar, Bool.and_eq_true, Bool.not_eq_true'] at hc
    exact hc.1.2
  rw [strip, String.toList_ofList, stripChars, List.dropWhile_eq_self_iff.mpr, List.rdropWhile_eq_self_iff.mpr]
  · intro hne
    simp [hspace _ (List.getLast_mem hne)]
  · intro hpos
    simp [hspace _ (List.getElem_mem hpos)]

theorem lower_plain {cs : List Char} (h : cs.all isPlainChar = true) :
    lib.lower (String.ofList cs) = String.ofList cs := by
  have hplain : ∀ c ∈ cs, c.toNat < 128 ∧ c.toLower = c := by
    intro c hc
    have hc := List.all_eq_true.mp h c hc
    simp only [isPlainChar, Bool.and_eq_true, decide_eq_true_eq, beq_iff_eq] at hc
    exact ⟨hc.1.1, hc.2⟩
  rw [lib.lower_ascii, lowerAscii, String.toList_ofList, List.map_congr_left fun c hc => (hplain c hc).2, List.map_id']
  rw [String.toList_ofList, List.all_eq_true]
  intro c hc
  simpa using (hplain c hc).1

theorem canonicalModelToolId_of_mem {name : String} (h : name ∈ allModelToolIds) :
    canonicalModelToolId lib name = some name := by
  have halias : ∀ name ∈ allModelToolIds, name ≠ "" ∧ legacyModelToolAliases.lookup name = none := by decide +kernel
  obtain ⟨ids, hids, hplain, -⟩ := modelToolIds_chars
  have hmem := h
  rw [hids] at hmem
  obtain ⟨cs, hcs, rfl⟩ := List.mem_map.mp hmem
  simp only [canonicalModelToolId, strip_plain (hplain cs hcs), lower_plain (hplain cs hcs), (halias _ h).2,
    if_neg (halias _ h).1, if_pos h]

theorem canonicalModelToolId_mem {rawName name : String} (h : canonicalModelToolId lib rawName = some name) :
    name ∈ allModelToolIds := by
  have halias : ∀ entry ∈ legacyModelToolAliases, entry.2 ∈ allModelToolIds := by decide +kernel
  simp only [canonicalModelToolId] at h
  split at h
  · cases h
  · split at h
    · next hlookup =>
      cases h
      obtain ⟨before, after, heq, -⟩ := List.lookup_eq_some_iff.mp hlookup
      exact halias (lib.lower (strip rawName), name) (by rw [heq]; simp)
    · split at h
      · next hmem =>
        cases h
        exact hmem
      · split at h
        · next hdirect =>
          cases h
          exact List.mem_of_find?_eq_some hdirect
        · exact (List.mem_filter.mp (mem_of_onlyMatch h)).1

theorem permitted_submitOutput {names : List String} : Permitted lib names "submit_output" ↔ "submit_output" ∈ names := by
  have hnot : "submit_output" ∉ allModelToolIds := by decide +kernel
  constructor
  · rintro ⟨item, hitem, rfl | hcanonical⟩
    · exact hitem
    · exact absurd (canonicalModelToolId_mem hcanonical) hnot
  · intro hmem
    exact ⟨_, hmem, .inl rfl⟩

/-- Among all model tools the operation `write` of `file` selects `file.write`. -/
theorem fileWrite_selected : onlyMatch ((familyMembers lib "file." allModelToolIds).filter fun candidate =>
    normalizeToolName lib (dropChars 5 candidate) == "write") = some "file.write" := by
  have hmembers : familyMembers lib "file." allModelToolIds = allModelToolIds.filter (startsWith "file.") := by
    rw [familyMembers, ← List.filterMap_eq_filter]
    apply List.filterMap_congr
    intro name hname
    have hne : ∀ name ∈ allModelToolIds, name ≠ "" := by decide +kernel
    obtain ⟨ids, hids, hplain, -⟩ := modelToolIds_chars
    have hmem := hname
    rw [hids] at hmem
    obtain ⟨cs, hcs, rfl⟩ := List.mem_map.mp hmem
    simp only [strip_plain (hplain cs hcs), canonicalModelToolId_of_mem hname, Option.getD_some]
    by_cases hstart : startsWith "file." (String.ofList cs) = true <;> simp [hstart, hne _ hname, Option.guard]
  obtain ⟨ids, hids, hplain, hwrite⟩ := modelToolIds_chars
  have hfilter : (ids.map String.ofList).filter (fun name =>
      normalizeToolName lib (dropChars 5 name) == "write" && startsWith "file." name) = ["file.write"] := by
    rw [List.filter_map, List.filter_congr (q := fun cs => "file.".toList.isPrefixOf cs &&
      stripUnderscores (collapseRuns false (cs.drop 5)) == "write".toList), hwrite]
    · rfl
    · intro cs hcs
      have hdrop : (cs.drop 5).all isPlainChar = true :=
        List.all_eq_true.mpr fun c hc => List.all_eq_true.mp (hplain cs hcs) c (List.mem_of_mem_drop hc)
      simp only [Function.comp_apply, startsWith, String.toList_ofList, dropChars, normalizeToolName, lower_plain hdrop]
      rw [Bool.and_comm]
      congr 1
      rw [Bool.eq_iff_iff, beq_iff_eq, beq_iff_eq, ← String.toList_inj, String.toList_ofList]
  rw [hmembers, List.filter_filter, hids, hfilter]
  rfl

end
end OpenMinion.ToolNames
