import OpenMinion.ContextPackBuild
import OpenMinion.JsonSpacedTexts
import OpenMinion.MemoTables
import OpenMinion.TransitionRuns

/-!
# The pack cache of the context service

`build_pack` with its cache, over sessions that are written between the requests. A pack that is found was built for
another request, which agrees with this one on what the lookup key hashes.
-/
namespace OpenMinion.ContextPackCache
open ContextPackBuild JsonSpacedTexts JsonTexts JsonValues KeyedTables MemoTables PythonText TransitionRuns

structure SessionEvent where
  eventId : String
  eventType : String
  payload : Dict
  deriving DecidableEq

structure SessionRecord where
  events : List SessionEvent := []
  turns : List SessionTurn := []
  workingStates : List (Option Dict × Option String) := []
  summary : Option (String × Option String) := none
  deriving DecidableEq

def appendEvent (event : SessionEvent) (session : SessionRecord) : SessionRecord :=
  if session.events.any fun e => e.eventId = event.eventId then session
  else { session with events := session.events ++ [event] }

def appendTurn (turn : SessionTurn) (event : SessionEvent) (session : SessionRecord) : SessionRecord :=
  appendEvent event { session with turns := session.turns ++ [turn] }

def putWorkingState (stateInline : Option Dict) (stateRef : Option String) (session : SessionRecord) : SessionRecord :=
  { session with workingStates := session.workingStates ++ [(stateInline, stateRef)] }

def updateSummary (summaryShort : String) (summaryLong : Option String) (event : SessionEvent) (session : SessionRecord) :
    SessionRecord :=
  appendEvent event { session with summary := some (summaryShort, summaryLong) }

/-- A session client: how it reads a slice, and what the service's telemetry writes through it
after a pack is returned. -/
structure SessionClient where
  getSlice : (sessionId : String) → Purpose → Option SessionRecord → SessionSlice
  afterPack : BuildPackRequest → ContextPack → (cacheHit : Bool) → SessionRecord → SessionRecord

structure LookupKey (Digest : Type) where
  sessionId : String
  agentId : String
  purpose : String
  modeName : String
  queryHash : Digest
  lastEventId : String
  profileVersion : String
  providerPref : String
  modelHint : String
  includeIdentity : String
  constraintsHash : Digest
  phaseHintsHash : Digest
  budgetsHash : Digest
  budgetTelemetryHash : Digest
  continuityQueryHash : Digest
  deriving DecidableEq

def textOrNull (text : Option String) : Json := (text.map Json.str).getD .null

def constraintsJson : Option BuildConstraints → Json
  | none => .dict []
  | some c => .dict
    [ ("canonical_tool_replay", .bool c.canonicalToolReplay),
      ("output_schema", (c.outputSchema.map Json.dict).getD .null),
      ("style_overrides", .dict c.styleOverrides),
      ("safety_tags", .list (c.safetyTags.map Json.str)),
      ("procedure_id", textOrNull c.procedureId),
      ("skill_id", textOrNull c.skillId),
      ("skill_version_hash", textOrNull c.skillVersionHash),
      ("skill_refs", .list (c.skillRefs.map fun ref =>
        .dict [("skill_id", .str ref.skillId), ("version_hash", textOrNull ref.versionHash)])),
      ("context_budget_tier", textOrNull c.contextBudgetTier),
      ("tool_schemas", .list (c.toolSchemas.map Json.dict)),
      ("runtime_tool_schemas", .list (c.runtimeToolSchemas.map Json.dict)) ]

def budgetsJson (b : ContextBudgets) : Json :=
  .dict
    [ ("total_max_tokens", .int b.totalMaxTokens),
      ("identity_tokens", .int b.identityTokens),
      ("summary_tokens", .int b.summaryTokens),
      ("conversation_summary_tokens", .int b.conversationSummaryTokens),
      ("active_plan_tokens", .int b.activePlanTokens),
      ("task_digest_tokens", .int b.taskDigestTokens),
      ("trailer_feedback_tokens", .int b.trailerFeedbackTokens),
      ("recent_turn_tokens", .int b.recentTurnTokens),
      ("facts_tokens", .int b.factsTokens),
      ("memory_tokens", .int b.memoryTokens),
      ("skills_tokens", .int b.skillsTokens),
      ("artifact_tokens", .int b.artifactTokens),
      ("instructions_tokens", .int b.instructionsTokens) ]

/-- `json.dumps(payload, sort_keys=True)`. -/
def sortedText (payload : Json) : List Char := spaced (sortedValue payload)

section Key

variable {Digest : Type} (digest : List Char → Digest)

/-- `_stable_hash`. -/
def stableHash (payload : Json) : Digest := digest (sortedText payload)

/-- `build_runtime_cache_lookup_key`. -/
def lookupKey (r : BuildPackRequest) (slice : SessionSlice) (profileVersion : String) : LookupKey Digest where
  sessionId := r.sessionId
  agentId := r.agentId
  purpose := r.purpose.text
  modeName := r.modeName.getD ""
  queryHash := stableHash digest (.str r.query)
  lastEventId := slice.lastEventId.getD ""
  profileVersion := profileVersion
  providerPref := r.providerPref.getD ""
  modelHint := r.modelHint.getD ""
  includeIdentity := if r.includeIdentity then "True" else "False"
  constraintsHash := stableHash digest (constraintsJson r.constraints)
  phaseHintsHash := stableHash digest (.dict r.phaseHints)
  budgetsHash := stableHash digest ((r.budgetsOverride.map fun o => budgetsJson o.dump).getD (.dict []))
  budgetTelemetryHash := stableHash digest (.dict r.budgetTelemetry)
  continuityQueryHash := stableHash digest (.str r.continuityQuery)

end Key

/-- The cache, with what each pack was built from; the recall state of each session's latest
manifest; and the sessions. -/
structure World (Answers Digest : Type) where
  cache : List (Entry (LookupKey Digest) (PackInputs Answers) ContextPack) := []
  latest : List (String × MidSessionRecallSnapshot) := []
  sessions : List (String × SessionRecord) := []

inductive Action (Answers : Type) where
  | appendEvent (sessionId : String) (event : SessionEvent)
  | appendTurn (sessionId : String) (turn : SessionTurn) (event : SessionEvent)
  | putWorkingState (sessionId : String) (stateInline : Option Dict) (stateRef : Option String)
  | updateSummary (sessionId : String) (summaryShort : String) (summaryLong : Option String) (event : SessionEvent)
  | buildPack (request : BuildPackRequest) (answers : Answers)

section Service

variable {Answers Digest : Type} [DecidableEq Digest] (c : Collaborators Answers Digest) (client : SessionClient)

def World.session (w : World Answers Digest) (sessionId : String) : Option SessionRecord :=
  (lookup Prod.fst sessionId w.sessions).map Prod.snd

def World.writeSession (w : World Answers Digest) (sessionId : String) (write : SessionRecord → SessionRecord) : World Answers Digest :=
  { w with sessions := updateWhere (fun s => s.1 = sessionId) (fun s => (s.1, write s.2)) w.sessions }

/-- What `build_pack` would build the pack from. -/
def World.inputs (w : World Answers Digest) (r : BuildPackRequest) (answers : Answers) : PackInputs Answers where
  request := r
  slice := applyLiveStateOverlay (client.getSlice r.sessionId r.purpose (w.session r.sessionId)) r.liveStateOverlay
  prior := (lookup Prod.fst r.sessionId w.latest).map Prod.snd
  answers := answers

def PackInputs.identity (i : PackInputs Answers) : IdentitySnippet :=
  identityOf c i.answers i.request.asked i.request.providerPref (budgetsOf i.request.asked i.request.budgetsOverride i.slice)

def PackInputs.key (i : PackInputs Answers) : LookupKey Digest :=
  lookupKey c.digest i.request i.slice (PackInputs.identity c i).profileVersion

def cacheAllowed (r : BuildPackRequest) : Bool := r.liveStateOverlay = []

def World.hit (w : World Answers Digest) (i : PackInputs Answers) : Option (Entry (LookupKey Digest) (PackInputs Answers) ContextPack) :=
  if cacheAllowed i.request then lookup Entry.key (PackInputs.key c i) w.cache else none

/-- `_record_latest_manifest` and the writes of the telemetry. -/
def World.returned (w : World Answers Digest) (r : BuildPackRequest) (pack : ContextPack) (cacheHit : Bool) : World Answers Digest :=
  { w with latest := upsertRow Prod.fst (r.sessionId, pack.midSessionRecallState) w.latest }.writeSession r.sessionId
    (client.afterPack r pack cacheHit)

def World.store (w : World Answers Digest) (i : PackInputs Answers) (pack : ContextPack) : World Answers Digest :=
  let current := i.slice.lastEventId.getD ""
  let kept := if current = "" then w.cache
    else deleteWhere (fun e => e.key.sessionId = i.request.sessionId && e.key.lastEventId ≠ current) w.cache
  { w with cache := if cacheAllowed i.request then upsertRow Entry.key ⟨PackInputs.key c i, i, pack⟩ kept else kept }

def buildPack (w : World Answers Digest) (r : BuildPackRequest) (answers : Answers) :
    Except PackError ContextPack × World Answers Digest :=
  let i := w.inputs client r answers
  if strip (PackInputs.identity c i).text = "" then (.error .identityMissing, w)
  else
    match w.hit c i with
    | some entry => (.ok entry.value, w.returned client r entry.value true)
    | none =>
      match buildFrom c i with
      | .error e => (.error e, w)
      | .ok pack => (.ok pack, (w.store c i pack).returned client r pack false)

def step (w : World Answers Digest) : Action Answers → World Answers Digest
  | .appendEvent sessionId event => w.writeSession sessionId (appendEvent event)
  | .appendTurn sessionId turn event => w.writeSession sessionId (appendTurn turn event)
  | .putWorkingState sessionId stateInline stateRef => w.writeSession sessionId (putWorkingState stateInline stateRef)
  | .updateSummary sessionId summaryShort summaryLong event =>
    w.writeSession sessionId (updateSummary summaryShort summaryLong event)
  | .buildPack r answers => (buildPack c client w r answers).2

end Service

section Agreement

variable {Answers Digest : Type} (c : Collaborators Answers Digest)

/-- Two payloads do not differ in the order of keys alone. -/
def SameOrder (x y : Json) : Prop := sortedText x = sortedText y → x = y

instance (x y : Json) : Decidable (SameOrder x y) := inferInstanceAs (Decidable (sortedText x = sortedText y → x = y))

/-- Which of the fields with a default are set. -/
def setFields (o : BudgetsOverride) : List Bool :=
  [o.conversationSummaryTokens.isSome, o.activePlanTokens.isSome, o.taskDigestTokens.isSome, o.trailerFeedbackTokens.isSome]

/-- Two builds agree in what the lookup key does not show. -/
structure AgreesBeyondKey (i j : PackInputs Answers) : Prop where
  modeName : i.request.modeName.isSome = j.request.modeName.isSome
  providerPref : i.request.providerPref.isSome = j.request.providerPref.isSome
  constraints : SameOrder (constraintsJson i.request.constraints) (constraintsJson j.request.constraints)
  phaseHints : SameOrder (.dict i.request.phaseHints) (.dict j.request.phaseHints)
  budgetTelemetry : SameOrder (.dict i.request.budgetTelemetry) (.dict j.request.budgetTelemetry)
  budgets : i.request.budgetsOverride.map setFields = j.request.budgetsOverride.map setFields
  gateway : strip i.request.gatewaySystemContext = strip j.request.gatewaySystemContext
  selfAwareness : i.request.selfAwareness = j.request.selfAwareness
  slice : i.slice.shown = j.slice.shown
  recalls : i.recalls c = j.recalls c
  answers : i.answers = j.answers

instance [DecidableEq Answers] (i j : PackInputs Answers) : Decidable (AgreesBeyondKey c i j) :=
  decidable_of_iff (i.request.modeName.isSome = j.request.modeName.isSome ∧
      i.request.providerPref.isSome = j.request.providerPref.isSome ∧
      SameOrder (constraintsJson i.request.constraints) (constraintsJson j.request.constraints) ∧
      SameOrder (.dict i.request.phaseHints) (.dict j.request.phaseHints) ∧
      SameOrder (.dict i.request.budgetTelemetry) (.dict j.request.budgetTelemetry) ∧
      i.request.budgetsOverride.map setFields = j.request.budgetsOverride.map setFields ∧
      strip i.request.gatewaySystemContext = strip j.request.gatewaySystemContext ∧
      i.request.selfAwareness = j.request.selfAwareness ∧ i.slice.shown = j.slice.shown ∧ i.recalls c = j.recalls c ∧
      i.answers = j.answers)
    ⟨fun h => ⟨h.1, h.2.1, h.2.2.1, h.2.2.2.1, h.2.2.2.2.1, h.2.2.2.2.2.1, h.2.2.2.2.2.2.1, h.2.2.2.2.2.2.2.1,
        h.2.2.2.2.2.2.2.2.1, h.2.2.2.2.2.2.2.2.2.1, h.2.2.2.2.2.2.2.2.2.2⟩,
      fun h => ⟨h.modeName, h.providerPref, h.constraints, h.phaseHints, h.budgetTelemetry, h.budgets, h.gateway, h.selfAwareness,
        h.slice, h.recalls, h.answers⟩⟩

theorem text_injective : Function.Injective Purpose.text := by
  intro a b h
  cases a <;> cases b <;> first | rfl | exact absurd h (by decide)

theorem sortedText_str {s s' : String} (h : sortedText (.str s) = sortedText (.str s')) : s = s' := by
  have hvalue := spaced_injective h
  rw [sortedValue, sortedValue] at hvalue
  exact Value.str.inj hvalue

theorem intValue_injective : Function.Injective intValue := by
  intro n n' h
  rw [intValue, intValue, Value.number.injEq, NumberText.mk.injEq] at h
  rw [← JsonRows.readInt_intText n, h, JsonRows.readInt_intText]

theorem textOrNull_injective : Function.Injective textOrNull := by
  rintro (_ | s) (_ | s') h
  · rfl
  · cases h
  · cases h
  · exact congrArg some (Json.str.inj h)

theorem constraintsJson_injective : Function.Injective constraintsJson := by
  rintro (_ | a) (_ | b) h
  · rfl
  · cases h
  · cases h
  · have hstr : Function.Injective Json.str := fun _ _ => Json.str.inj
    have hdict : Function.Injective Json.dict := fun _ _ => Json.dict.inj
    have href : Function.Injective fun ref : SkillSnippetRef =>
        Json.dict [("skill_id", .str ref.skillId), ("version_hash", textOrNull ref.versionHash)] := by
      rintro ⟨_, _⟩ ⟨_, _⟩ href
      simp only [Json.dict.injEq, List.cons.injEq, Prod.mk.injEq, Json.str.injEq, true_and, and_true] at href
      rw [href.1, textOrNull_injective href.2]
    obtain ⟨_, schema, _, _, _, _, _, _, _, _, _⟩ := a
    obtain ⟨_, schema', _, _, _, _, _, _, _, _, _⟩ := b
    simp only [constraintsJson, Json.dict.injEq, List.cons.injEq, Prod.mk.injEq, Json.bool.injEq, Json.list.injEq, true_and, and_true,
      hstr.list_map.eq_iff, hdict.list_map.eq_iff, href.list_map.eq_iff, textOrNull_injective.eq_iff] at h
    obtain ⟨rfl, hschema, rfl, rfl, rfl, rfl, rfl, rfl, rfl, rfl, rfl⟩ := h
    cases schema <;> cases schema' <;> simp_all

theorem budgetsJson_of_sortedText {a b : ContextBudgets} (h : sortedText (budgetsJson a) = sortedText (budgetsJson b)) : a = b := by
  have hvalue := spaced_injective h
  simp +decide [budgetsJson, sortedValue, sortedItems, sortKeys, List.insertionSort, List.orderedInsert,
    intValue_injective.eq_iff] at hvalue
  obtain ⟨_, _, _, _, _, _, _, _, _, _, _, _, _⟩ := a
  obtain ⟨_, _, _, _, _, _, _, _, _, _, _, _, _⟩ := b
  obtain ⟨rfl, rfl, rfl, rfl, rfl, rfl, rfl, rfl, rfl, rfl, rfl, rfl, rfl⟩ := hvalue
  rfl

theorem dump_injective {o o' : BudgetsOverride} (hdump : o.dump = o'.dump) (hset : setFields o = setFields o') : o = o' := by
  have hfield : ∀ {field field' : Option ℕ}, field.getD 0 = field'.getD 0 → field.isSome = field'.isSome → field = field' := by
    rintro (_ | _) (_ | _) hvalue hgiven
    · rfl
    · cases hgiven
    · cases hgiven
    · exact congrArg some hvalue
  simp only [BudgetsOverride.dump, BudgetsOverride.over, ContextBudgets.mk.injEq, setFields, List.cons.injEq, and_true] at hdump hset
  obtain ⟨htotal, hidentity, hsummary, hconversation, hplan, hdigest, htrailer, hrest⟩ := hdump
  obtain ⟨_, _, _, _, _, _, _, _, _, _, _, _, _⟩ := o
  obtain ⟨_, _, _, _, _, _, _, _, _, _, _, _, _⟩ := o'
  rw [BudgetsOverride.mk.injEq]
  exact ⟨htotal, hidentity, hsummary, hfield hconversation hset.1, hfield hplan hset.2.1, hfield hdigest hset.2.2.1,
    hfield htrailer hset.2.2.2, hrest⟩

theorem eq_of_getD {text text' : Option String} (h : text.getD "" = text'.getD "") (hgiven : text.isSome = text'.isSome) :
    text = text' := by
  cases text with
  | none =>
    cases text' with
    | none => rfl
    | some => cases hgiven
  | some =>
    cases text' with
    | none => cases hgiven
    | some => exact congrArg some h

/-- **The lookup key and what it does not show determine the pack.** -/
theorem buildFrom_eq (hdigest : Function.Injective c.digest) {i j : PackInputs Answers}
    (hkey : PackInputs.key c i = PackInputs.key c j) (hi : i.request.liveStateOverlay = []) (hj : j.request.liveStateOverlay = [])
    (h : AgreesBeyondKey c i j) : buildFrom c i = buildFrom c j := by
  rw [PackInputs.key, PackInputs.key, lookupKey, lookupKey, LookupKey.mk.injEq] at hkey
  obtain ⟨hsession, hagent, hpurpose, hmode, hquery, -, -, hprovider, -, hidentity, hconstraints, hhints, hbudgets, htelemetry,
    hcontinuity⟩ := hkey
  have hbudgetsEq : i.request.budgetsOverride = j.request.budgetsOverride := by
    have hset := h.budgets
    have htext := hdigest hbudgets
    cases hio : i.request.budgetsOverride with
    | none =>
      cases hjo : j.request.budgetsOverride with
      | none => rfl
      | some o' =>
        rw [hio, hjo] at hset
        cases hset
    | some o =>
      cases hjo : j.request.budgetsOverride with
      | none =>
        rw [hio, hjo] at hset
        cases hset
      | some o' =>
        rw [hio, hjo] at hset htext
        exact congrArg some (dump_injective (budgetsJson_of_sortedText htext) (Option.some.inj hset))
  have hincluded : i.request.includeIdentity = j.request.includeIdentity := by
    cases hin : i.request.includeIdentity <;> cases hjn : j.request.includeIdentity <;> simp [hin, hjn] at hidentity ⊢
  have hasked : i.request.asked = j.request.asked := by
    rw [BuildPackRequest.asked, BuildPackRequest.asked, Asked.mk.injEq]
    exact ⟨hsession, hagent, text_injective hpurpose, eq_of_getD hmode h.modeName, sortedText_str (hdigest hquery),
      sortedText_str (hdigest hcontinuity), by rw [constraintsJson_injective (h.constraints (hdigest hconstraints))],
      Json.dict.inj (h.budgetTelemetry (hdigest htelemetry)), hi.trans hj.symm, Json.dict.inj (h.phaseHints (hdigest hhints)),
      hincluded⟩
  rw [buildFrom, hasked, eq_of_getD hprovider h.providerPref, hbudgetsEq, h.gateway, h.selfAwareness, h.slice, h.recalls, h.answers,
    buildFrom]

end Agreement

section Service

variable {Answers Digest : Type} [DecidableEq Digest] (c : Collaborators Answers Digest) (client : SessionClient)

def HitAgrees (w : World Answers Digest) : Action Answers → Prop
  | .buildPack r answers =>
    ∀ entry ∈ w.hit c (w.inputs client r answers), AgreesBeyondKey c entry.input (w.inputs client r answers)
  | _ => True

instance [DecidableEq Answers] (w : World Answers Digest) : ∀ action, Decidable (HitAgrees c client w action)
  | .buildPack r answers => inferInstanceAs (Decidable (∀ entry ∈ w.hit c (w.inputs client r answers),
      AgreesBeyondKey c entry.input (w.inputs client r answers)))
  | .appendEvent _ _ | .appendTurn _ _ _ | .putWorkingState _ _ _ | .updateSummary _ _ _ _ => isTrue trivial

/-- A pack that may be cached, and is what `build_pack` builds. -/
def Builds (i : PackInputs Answers) (pack : ContextPack) : Prop := buildFrom c i = .ok pack ∧ i.request.liveStateOverlay = []

/-- Each entry has a pack of its input under the key of its input. -/
structure CacheOk (w : World Answers Digest) : Prop where
  sound : Sound (Builds c) w.cache
  keyed : Keyed (PackInputs.key c) w.cache

variable {c client}

theorem cacheOk_store {w : World Answers Digest} (hw : CacheOk c w) {i : PackInputs Answers} {pack : ContextPack}
    (hpack : buildFrom c i = .ok pack) : CacheOk c (w.store c i pack) := by
  rw [World.store]
  generalize hkept : (if i.slice.lastEventId.getD "" = "" then w.cache else deleteWhere _ w.cache) = kept
  have hcache : Sound (Builds c) kept ∧ Keyed (PackInputs.key c) kept := by
    rw [← hkept]
    split
    · exact ⟨hw.sound, hw.keyed⟩
    · exact ⟨hw.sound.deleteWhere _, hw.keyed.deleteWhere _⟩
  by_cases hallowed : cacheAllowed i.request = true
  · simp only [hallowed, if_true]
    exact ⟨hcache.1.store ⟨hpack, of_decide_eq_true hallowed⟩, hcache.2.store rfl⟩
  · simp only [hallowed, if_false, Bool.false_eq_true]
    exact ⟨hcache.1, hcache.2⟩

theorem cacheOk_step {w : World Answers Digest} (hw : CacheOk c w) (action : Action Answers) : CacheOk c (step c client w action) := by
  cases action with
  | buildPack r answers =>
    rw [step, buildPack]
    split
    · exact hw
    · split
      · exact ⟨hw.sound, hw.keyed⟩
      · split
        · exact hw
        · rename_i pack hpack
          have hstored := cacheOk_store hw hpack
          exact ⟨hstored.sound, hstored.keyed⟩
  | appendEvent sessionId event => exact ⟨hw.sound, hw.keyed⟩
  | appendTurn sessionId turn event => exact ⟨hw.sound, hw.keyed⟩
  | putWorkingState sessionId stateInline stateRef => exact ⟨hw.sound, hw.keyed⟩
  | updateSummary sessionId summaryShort summaryLong event => exact ⟨hw.sound, hw.keyed⟩

theorem fst_buildPack_of_cacheOk (hdigest : Function.Injective c.digest) {w : World Answers Digest} (hw : CacheOk c w)
    {r : BuildPackRequest} {answers : Answers} (hagrees : HitAgrees c client w (.buildPack r answers)) :
    (buildPack c client w r answers).1 = (buildPack c client { w with cache := [] } r answers).1 := by
  have hinputs : World.inputs client ({ w with cache := [] } : World Answers Digest) r answers = w.inputs client r answers := rfl
  have hmiss : World.hit c { w with cache := [] } (w.inputs client r answers) = none := by
    rw [World.hit]
    split <;> rfl
  have hfresh : (buildPack c client { w with cache := [] } r answers).1 =
      if strip (PackInputs.identity c (w.inputs client r answers)).text = "" then .error .identityMissing
      else buildFrom c (w.inputs client r answers) := by
    simp only [buildPack, hinputs, hmiss]
    split
    · rfl
    · split <;> simp_all
  rw [hfresh, buildPack]
  split
  · rfl
  · cases hhit : w.hit c (w.inputs client r answers) with
    | none =>
      simp only
      split <;> simp_all
    | some entry =>
      have hentry := hhit
      rw [World.hit] at hentry
      split at hentry
      · next hallowed =>
        obtain ⟨hvalue, hempty⟩ := hw.sound.lookup hentry
        have hkey := (hw.keyed entry (lookup_some hentry).1).symm.trans (lookup_some hentry).2
        rw [buildFrom_eq c hdigest hkey hempty (of_decide_eq_true hallowed) (hagrees entry hhit)] at hvalue
        exact hvalue.symm
      · cases hentry

/-- In every run in which each entry that is found agrees with the request in what the key does not
show, `build_pack` returns what it would build with an empty cache. -/
theorem cache_transparent (c : Collaborators Answers Digest) (hdigest : Function.Injective c.digest) (client : SessionClient)
    (sessions : List (String × SessionRecord)) (before after : List (Action Answers)) (r : BuildPackRequest) (answers : Answers)
    (h : Guarded (step c client) (HitAgrees c client) { sessions } (before ++ .buildPack r answers :: after)) :
    (buildPack c client (run (step c client) { sessions } before) r answers).1 =
      (buildPack c client { run (step c client) { sessions } before with cache := [] } r answers).1 := by
  obtain ⟨-, hrest⟩ := guarded_append.mp h
  have hcache : CacheOk c (run (step c client) { sessions } before) :=
    run_invariant (I := CacheOk c) (fun _ action hw => cacheOk_step hw action) ⟨Sound.nil, Keyed.nil⟩ before
  cases hrest with
  | cons hagrees _ => exact fst_buildPack_of_cacheOk hdigest hcache hagrees

end Service

def emptyClients : Clients where
  queryFacts _ _ _ _ _ := []
  queryMemoryCards _ _ _ _ _ := []
  queryDigests _ _ _ _ := []
  recallSessionStartMemory _ _ _ _ _ _ := []
  recallRecentSessionArtifacts _ _ _ _ _ := []
  recallMidSessionMemory _ _ _ _ _ := []
  getProcedure _ := none
  renderSnippet := none

/-- What the renderers return for a session without turns, state or summary, and a request
with neither tools nor hints. -/
def bareRenderers : Renderers where
  buildPromptToolSchemas _ _ := []
  prefixBuild identityText _ _ _ := identityText
  toolInventoryLines _ _ := []
  promptViewJson _ := none
  clarifyDigest _ := ""
  taskHeader purpose query _ _ := "purpose: " ++ purpose.text ++ "\nquery: " ++ strip query
  phaseSections _ _ := []
  budgetTelemetryBlock _ := ""
  selfAwarenessBlock _ := ""
  taskDigest _ := ""
  activePlan _ := ""
  trailerFeedback _ := ""
  summarySegments _ _ _ := ⟨[], [("summaries", 0, 0), ("conversation_summary", 0, 0)]⟩
  recentWindowSegments _ _ _ := ⟨[], [("recent_window", 0, 0)]⟩
  retrievalSegments _ _ _ _ := ⟨[], [("retrieval", 0, 0)]⟩
  evidenceAndTurnInputSegments asked _ _ _ :=
    ⟨[{ id := "turn_input", bucket := "turn_input", content := strip asked.query, role := "user", pinned := true }],
      [("evidence_refs", 0, 0)]⟩
  memoryBlockSegments _ _ _ := {}
  trimSegments _ _ p := p.segments
  evidencePriorityOrdering _ segments := segments
  recallState _ turnIndex := { turnIndex }

def bareCollaborators : Collaborators Unit (List Char) where
  clients := emptyClients
  renderers _ := bareRenderers
  renderIdentity _ _ _ _ _ _ := ⟨"You are a helpful agent.", "v1"⟩
  applyIdentityBudget identity _ := identity.text
  digest := id

/-- Like `SessctlSessionClient`, the client gives no event id, and nothing is written through it. -/
def plainSessionClient : SessionClient where
  getSlice sessionId _ record :=
    { sessionId
      summaryShort := ((record.bind SessionRecord.summary).map Prod.fst).getD ""
      totalTurnCount := (record.getD {}).turns.length
      recentTurns := (record.getD {}).turns.drop ((record.getD {}).turns.length - 12) }
  afterPack _ _ _ session := session

def greeting : BuildPackRequest :=
  { sessionId := "s1", agentId := "main", purpose := .chat, query := "hello", gatewaySystemContext := "Billing is closed today." }

def laterGreeting : BuildPackRequest := { greeting with gatewaySystemContext := " Billing is closed today.\n", modelHint := some "" }

theorem cache_transparent_greeting :
    (buildPack bareCollaborators plainSessionClient (run (step bareCollaborators plainSessionClient) { sessions := [("s1", {})] }
      [.buildPack greeting (), .appendEvent "s1" ⟨"e1", "note", []⟩]) laterGreeting ()).1 =
    (buildPack bareCollaborators plainSessionClient { run (step bareCollaborators plainSessionClient) { sessions := [("s1", {})] }
      [.buildPack greeting (), .appendEvent "s1" ⟨"e1", "note", []⟩] with cache := [] } laterGreeting ()).1 :=
  cache_transparent bareCollaborators Function.injective_id plainSessionClient [("s1", {})]
    [.buildPack greeting (), .appendEvent "s1" ⟨"e1", "note", []⟩] [] laterGreeting () (by decide +kernel)

/-- The second request gets the pack with the gateway context of the first. -/
theorem gateway_context_stale :
    ¬ ∀ (c : Collaborators Unit (List Char)) (client : SessionClient) (sessions : List (String × SessionRecord))
      (before : List (Action Unit)) (r : BuildPackRequest), Function.Injective c.digest →
      (buildPack c client (run (step c client) { sessions } before) r ()).1 =
        (buildPack c client { run (step c client) { sessions } before with cache := [] } r ()).1 := by
  intro h
  have hstale := h bareCollaborators plainSessionClient [("s1", {})] [.buildPack greeting ()]
    { greeting with gatewaySystemContext := "Billing is open." } Function.injective_id
  revert hstale
  decide +kernel

end OpenMinion.ContextPackCache
