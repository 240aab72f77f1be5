import Mathlib.Algebra.GroupWithZero.Nat
import OpenMinion.CompressionTiers
import OpenMinion.TransitionRuns

/-!
# Rebuilding compression checkpoints

Batches of events are merged into the bundle of a session, checkpoints of it are saved, and `rebuild_checkpoints`
replays the history, which is a list of the service that `update` extends.
-/
namespace OpenMinion.CompactionRebuild
open CompressionTiers JsonValues KeyedTables TransitionRuns

structure CompressionBundle where
  bundleId : String
  sessionId : String
  summaryText : String
  tiers : List TierEntry := []
  upToEventId : Option String := none
  checkpointId : Option String := none
  totalTokens : ℕ := 0
  version : ℕ := 1
  metadata : Dict := []
  deriving DecidableEq

/-- A decision, constraint or open loop, or a tool digest, with what it has besides its text. -/
structure StructuredItem where
  id : Json
  statement : String
  fields : Dict := []
  refs : List String := []
  deriving DecidableEq

structure CheckpointStructuredState where
  decisions : List StructuredItem := []
  constraints : List StructuredItem := []
  openLoops : List StructuredItem := []
  entities : List (String × List String) := []
  toolDigests : List StructuredItem := []
  deriving DecidableEq

structure CompressionCheckpoint where
  checkpointId : String
  sessionId : String
  createdAt : String
  fromEventId : Option String
  toEventId : String
  summaryText : String
  recentWindowEventIds : List String
  structured : CheckpointStructuredState
  summaryTokens : ℕ
  structuredTokens : ℕ
  deriving DecidableEq

inductive CheckpointError where
  | rangeInvalid
  | stableIdCollision
  | budgetExceeded
  deriving DecidableEq

/-- A row of the session store: the checkpoint's id there, its session and its bundle. -/
structure PersistedRow where
  rowId : String
  sessionId : String
  bundle : CompressionBundle
  deriving DecidableEq

structure Fresh where
  bundleId : String
  checkpointId : String
  rowId : String
  createdAt : String

structure Config where
  runtime : Runtime
  /-- `uuid5` of a text. -/
  uuid5 : String → String
  budgets : SeedBundleBudgets := {}
  tokenLimit : ℕ := 2400
  recentWindowMinEvents : ℕ := 10
  largeToolOutputTokens : ℕ := 500

/-- The service; `persisted` are the rows of its session store, if it has one. -/
structure Service where
  bundles : List (String × CompressionBundle) := []
  allEvents : List (String × List DeltaEvent) := []
  checkpoints : List CompressionCheckpoint := []
  failures : List (String × CheckpointError) := []
  persisted : Option (List PersistedRow) := none
  deriving DecidableEq

/-- `self._all_events.get(session_id, [])`. -/
def Service.recorded (s : Service) (sessionId : String) : List DeltaEvent :=
  ((lookup Prod.fst sessionId s.allEvents).map Prod.snd).getD []

def Service.bundle (s : Service) (sessionId : String) : Option CompressionBundle :=
  (lookup Prod.fst sessionId s.bundles).map Prod.snd

def Service.latestRow (s : Service) (sessionId : String) : Option PersistedRow :=
  (s.persisted.getD []).reverse.find? fun row => row.sessionId = sessionId

/-- The bundle that `_get_or_create_bundle` finds, in memory or in the session store. -/
def Service.found (s : Service) (sessionId : String) : Option CompressionBundle :=
  (s.bundle sessionId).or ((s.latestRow sessionId).map fun row =>
    { row.bundle with sessionId, checkpointId := some row.rowId })

def Service.setBundle (s : Service) (sessionId : String) (bundle : CompressionBundle) : Service :=
  { s with bundles := upsertRow Prod.fst (sessionId, bundle) s.bundles }

def getOrCreateBundle (s : Service) (sessionId : String) (fresh : Fresh) : CompressionBundle × Service :=
  let bundle := (s.found sessionId).getD { bundleId := fresh.bundleId, sessionId, summaryText := "" }
  (bundle, s.setBundle sessionId bundle)

section Calls

variable (cfg : Config)

/-- The reasons of `TriggerPolicy.evaluate` that depend on the events. -/
def triggers (events : List DeltaEvent) : List String :=
  let add := fun (reasons : List String) reason => if reasons.contains reason then reasons else reasons ++ [reason]
  events.foldl (fun reasons e =>
    let reasons := if isToolResult e &&
        decide (cfg.largeToolOutputTokens < countTokens (e.text.getD "") + countTokens (cfg.runtime.dumps (.dict e.payload)))
      then add reasons "large_tool_output" else reasons
    let reasons := if ["run.finished", "turn.completed"].contains e.eventType then add reasons "after_run_finished" else reasons
    if ["task.boundary", "task.completed", "task.created"].contains e.eventType then add reasons "task_boundary" else reasons) []

def Service.persist (s : Service) (sessionId : String) (bundle : CompressionBundle) (fresh : Fresh) : Service :=
  { s with persisted := s.persisted.map fun rows => rows ++ [⟨fresh.rowId, sessionId, bundle⟩] }

def checkpoint (s : Service) (sessionId : String) (fresh : Fresh) : Service :=
  let (bundle, s) := getOrCreateBundle s sessionId fresh
  (s.setBundle sessionId { bundle with checkpointId := some fresh.checkpointId }).persist sessionId bundle fresh

inductive Batch where
  | given (events : List DeltaEvent)
  | history

def Batch.read (s : Service) (sessionId : String) : Batch → List DeltaEvent
  | .given events => events
  | .history => s.recorded sessionId

/-- `self._all_events.setdefault(session_id, []).extend(events)`. -/
def Service.extend (s : Service) (sessionId : String) (events : List DeltaEvent) : Service :=
  { s with allEvents := upsertRow Prod.fst (sessionId, s.recorded sessionId ++ events) s.allEvents }

def mergedBundle (current : CompressionBundle) (sessionId : String) (events : List DeltaEvent) (new : List TierEntry) :
    CompressionBundle :=
  let tiers := mergeTiers cfg.runtime cfg.budgets current.tiers new
  let summaries := tiers.filter fun entry => entry.tierType = .summary
  { current with
    sessionId
    summaryText := if summaries = [] then current.summaryText else joinWords (summaries.map TierEntry.text)
    tiers
    upToEventId := (events.getLast?.map DeltaEvent.eventId).or current.upToEventId
    totalTokens := (tiers.map TierEntry.tokenCount).sum
    version := current.version + 1 }

/-- `update`. A batch that is the history itself has grown with it when it is read again. -/
def update (s : Service) (sessionId : String) (batch : Batch) (fresh : Fresh) :
    Except ExtractError CompressionBundle × Service :=
  if batch.read s sessionId = [] then
    let (bundle, s) := getOrCreateBundle s sessionId fresh
    (.ok bundle, s)
  else
    let s := s.extend sessionId (batch.read s sessionId)
    match (batch.read s sessionId).mapM excludeRawToolOutput with
    | .error e => (.error e, s)
    | .ok events =>
      let (current, s) := getOrCreateBundle s sessionId fresh
      match extractAll cfg.runtime events with
      | .error e => (.error e, s)
      | .ok new =>
        let bundle := mergedBundle cfg current sessionId events new
        let s := s.setBundle sessionId bundle
        if s.persisted.isSome && triggers cfg events ≠ [] then (.ok bundle, checkpoint s sessionId fresh) else (.ok bundle, s)

def stableId (tier : TierEntry) : Json := orElse (Dict.get tier.metadata "stable_id") (.str (cfg.uuid5 tier.text))

def structuredItems (tiers : List TierEntry) (tierType : TierType) (fields : TierEntry → Dict) (refs : TierEntry → List String) :
    List StructuredItem :=
  (tiers.filter fun tier => tier.tierType = tierType).map fun tier => ⟨stableId cfg tier, tier.text, fields tier, refs tier⟩

def buildStructuredState (tiers : List TierEntry) : CheckpointStructuredState where
  decisions := structuredItems cfg tiers .decisions (fun _ => []) TierEntry.refs
  constraints := structuredItems cfg tiers .constraints
    (fun t => [("scope", getOr t.metadata "scope" (.str "global")), ("priority", getOr t.metadata "priority" (.str "normal"))])
    (fun _ => [])
  openLoops := structuredItems cfg tiers .openLoops
    (fun t => [("owner", Dict.get t.metadata "owner"), ("status", getOr t.metadata "status" (.str "open"))]) (fun _ => [])
  entities := ((tiers.filter fun tier => tier.tierType = .entities).map fun tier => (PythonText.strip tier.text, tier.refs)).foldl
    (fun seen item => upsertRow Prod.fst item seen) []
  toolDigests := (tiers.filter fun tier => tier.tierType = .toolDigests).map fun tier =>
    ⟨.null, tier.text, [("tool_name", getOr tier.metadata "tool_name" (.str "unknown"))], tier.refs⟩

/-- The checks of `CheckpointComposerV1`. -/
def composeError (fromEventId : Option String) (toEventId summaryText : String) (structured : CheckpointStructuredState) :
    Option CheckpointError :=
  let collides := fun items : List StructuredItem => !decide (items.map StructuredItem.id).Nodup
  let tokens := fun items : List StructuredItem => (items.map fun item => countTokens item.statement).sum
  if fromEventId = some toEventId then some .rangeInvalid
  else if collides structured.decisions || collides structured.constraints || collides structured.openLoops then
    some .stableIdCollision
  else if cfg.tokenLimit < countTokens summaryText +
      (tokens structured.decisions + tokens structured.constraints + tokens structured.openLoops + tokens structured.toolDigests) then
    some .budgetExceeded
  else none

/-- `until_event_id or bundle.up_to_event_id or checkpoint_id`. -/
def toEventId (untilEventId : Option String) (bundle : CompressionBundle) (fresh : Fresh) : String :=
  ((untilEventId.filter (· ≠ "")).or (bundle.upToEventId.filter (· ≠ ""))).getD fresh.checkpointId

/-- `events[-n:]`. -/
def lastEvents (n : ℕ) (events : List DeltaEvent) : List DeltaEvent :=
  if n = 0 then events else events.drop (events.length - n)

def maybeCheckpoint (s : Service) (sessionId : String) (untilEventId : Option String) (fresh : Fresh) :
    Option String × Service :=
  let (bundle, s) := getOrCreateBundle s sessionId fresh
  let fromEventId := (s.checkpoints.reverse.find? fun cp => cp.sessionId = sessionId).map CompressionCheckpoint.toEventId
  let toEventId := toEventId untilEventId bundle fresh
  let structured := buildStructuredState cfg bundle.tiers
  let recent := lastEvents cfg.recentWindowMinEvents (s.recorded sessionId)
  if PythonText.strip bundle.summaryText = "" then (none, s)
  else
    match composeError cfg fromEventId toEventId bundle.summaryText structured with
    | some e => (none, { s with failures := s.failures ++ [(sessionId, e)] })
    | none =>
      let saved : CompressionCheckpoint :=
        { checkpointId := fresh.checkpointId
          sessionId
          createdAt := fresh.createdAt
          fromEventId
          toEventId
          summaryText := bundle.summaryText
          recentWindowEventIds := recent.map DeltaEvent.eventId
          structured
          summaryTokens := countTokens bundle.summaryText
          structuredTokens := ((structured.decisions ++ structured.constraints ++ structured.openLoops ++ structured.toolDigests).map
            fun item => countTokens item.statement).sum }
      let s := { s with checkpoints := s.checkpoints ++ [saved] }
      (some fresh.checkpointId,
        (s.setBundle sessionId { bundle with checkpointId := some fresh.checkpointId }).persist sessionId bundle fresh)

/-- `rebuild_checkpoints`; without events it passes the history of the session to `update`. -/
def rebuildCheckpoints (s : Service) (sessionId : String) (events : Option (List DeltaEvent)) (fresh fresh' : Fresh) :
    Except ExtractError (List String) × Service :=
  let s := { s with
    checkpoints := deleteWhere (fun cp => cp.sessionId = sessionId) s.checkpoints
    bundles := deleteWhere (fun b => b.1 = sessionId) s.bundles }
  let batch := match events with
    | some events => Batch.given events
    | none => Batch.history
  if batch.read s sessionId = [] then (.ok [], s)
  else
    match update cfg s sessionId batch fresh with
    | (.error e, s) => (.error e, s)
    | (.ok _, s) =>
      let (id, s) := maybeCheckpoint cfg s sessionId none fresh'
      (.ok id.toList, s)

def Service.view (s : Service) (sessionId : String) : List DeltaEvent × Option CompressionBundle × Option PersistedRow :=
  (s.recorded sessionId, s.bundle sessionId, s.latestRow sessionId)

theorem view_setBundle_of_ne {sessionId other : String} (h : other ≠ sessionId) (s : Service) (bundle : CompressionBundle) :
    (s.setBundle sessionId bundle).view other = s.view other := by
  have hlookup : (s.setBundle sessionId bundle).bundle other = s.bundle other := by
    rw [Service.bundle, Service.setBundle, lookup_upsertRow_of_ne (show other ≠ (sessionId, bundle).1 from h)]
    rfl
  simp only [Service.view, hlookup]
  rfl

theorem view_extend_of_ne {sessionId other : String} (h : other ≠ sessionId) (s : Service) (events : List DeltaEvent) :
    (s.extend sessionId events).view other = s.view other := by
  have hlookup : (s.extend sessionId events).recorded other = s.recorded other := by
    rw [Service.recorded, Service.extend, lookup_upsertRow_of_ne (show other ≠ (sessionId, s.recorded sessionId ++ events).1 from h)]
    rfl
  simp only [Service.view, hlookup]
  rfl

theorem view_persist_of_ne {sessionId other : String} (h : other ≠ sessionId) (s : Service) (bundle : CompressionBundle)
    (fresh : Fresh) : (s.persist sessionId bundle fresh).view other = s.view other := by
  have hrow : (s.persist sessionId bundle fresh).latestRow other = s.latestRow other := by
    cases hrows : s.persisted with
    | none => simp [Service.latestRow, Service.persist, hrows]
    | some rows =>
      have hne : ¬ sessionId = other := fun heq => h heq.symm
      simp [Service.latestRow, Service.persist, hrows, hne]
  simp only [Service.view, hrow]
  rfl

theorem view_getOrCreateBundle_of_ne {sessionId other : String} (h : other ≠ sessionId) (s : Service) (fresh : Fresh) :
    (getOrCreateBundle s sessionId fresh).2.view other = s.view other := view_setBundle_of_ne h s _

theorem view_checkpoint_of_ne {sessionId other : String} (h : other ≠ sessionId) (s : Service) (fresh : Fresh) :
    (checkpoint s sessionId fresh).view other = s.view other := by
  rw [checkpoint, view_persist_of_ne h, view_setBundle_of_ne h, view_getOrCreateBundle_of_ne h]

/-- What an update leaves: the batch is recorded, and the bundle is made, merged and saved as far as the call gets. -/
theorem snd_update_cases (s : Service) (sessionId : String) (batch : Batch) (fresh : Fresh) :
    (batch.read s sessionId = [] ∧ (update cfg s sessionId batch fresh).2 = (getOrCreateBundle s sessionId fresh).2) ∨
    ∃ extended, extended = s.extend sessionId (batch.read s sessionId) ∧
      ((update cfg s sessionId batch fresh).2 = extended ∨
        (update cfg s sessionId batch fresh).2 = (getOrCreateBundle extended sessionId fresh).2 ∨
        ∃ bundle, (update cfg s sessionId batch fresh).2 = (getOrCreateBundle extended sessionId fresh).2.setBundle sessionId bundle ∨
          (update cfg s sessionId batch fresh).2 =
            checkpoint ((getOrCreateBundle extended sessionId fresh).2.setBundle sessionId bundle) sessionId fresh) := by
  by_cases hempty : batch.read s sessionId = []
  · left
    exact ⟨hempty, by simp [update, hempty]⟩
  · right
    refine ⟨_, rfl, ?_⟩
    simp only [update, if_neg hempty]
    split
    · exact .inl rfl
    · split
      · exact .inr (.inl rfl)
      · rename_i events _ _ new _
        right
        right
        refine ⟨mergedBundle cfg (getOrCreateBundle (s.extend sessionId (batch.read s sessionId)) sessionId fresh).1 sessionId
          events new, ?_⟩
        split
        · exact .inr rfl
        · exact .inl rfl

theorem view_update_of_ne {sessionId other : String} (h : other ≠ sessionId) (s : Service) (batch : Batch) (fresh : Fresh) :
    (update cfg s sessionId batch fresh).2.view other = s.view other := by
  obtain ⟨-, heq⟩ | ⟨extended, rfl, heq | heq | ⟨bundle, heq | heq⟩⟩ := snd_update_cases cfg s sessionId batch fresh
  · rw [heq, view_getOrCreateBundle_of_ne h]
  · rw [heq, view_extend_of_ne h]
  · rw [heq, view_getOrCreateBundle_of_ne h, view_extend_of_ne h]
  · rw [heq, view_setBundle_of_ne h, view_getOrCreateBundle_of_ne h, view_extend_of_ne h]
  · rw [heq, view_checkpoint_of_ne h, view_setBundle_of_ne h, view_getOrCreateBundle_of_ne h, view_extend_of_ne h]

theorem recorded_extend (s : Service) (sessionId : String) (events : List DeltaEvent) :
    (s.extend sessionId events).recorded sessionId = s.recorded sessionId ++ events := by
  rw [Service.recorded, Service.extend]
  have hself : lookup Prod.fst sessionId
      (upsertRow Prod.fst (sessionId, s.recorded sessionId ++ events) s.allEvents) =
      some (sessionId, s.recorded sessionId ++ events) :=
    @lookup_upsertRow_self _ _ Prod.fst _ (sessionId, s.recorded sessionId ++ events) s.allEvents
  rw [hself]
  rfl

theorem recorded_update (s : Service) (sessionId : String) (batch : Batch) (fresh : Fresh) :
    (update cfg s sessionId batch fresh).2.recorded sessionId = s.recorded sessionId ++ batch.read s sessionId := by
  obtain ⟨hempty, heq⟩ | ⟨extended, rfl, heq | heq | ⟨bundle, heq | heq⟩⟩ := snd_update_cases cfg s sessionId batch fresh
  · rw [heq, hempty, List.append_nil]
    rfl
  · rw [heq, recorded_extend]
  -- only `extend` writes a history
  all_goals rw [heq, ← recorded_extend]; rfl

theorem allEvents_maybeCheckpoint (s : Service) (sessionId : String) (untilEventId : Option String) (fresh : Fresh) :
    (maybeCheckpoint cfg s sessionId untilEventId fresh).2.allEvents = s.allEvents := by
  rw [maybeCheckpoint]
  simp only
  split
  · rfl
  · split <;> rfl

theorem recorded_rebuildCheckpoints (s : Service) (sessionId : String) (fresh fresh' : Fresh) :
    (rebuildCheckpoints cfg s sessionId none fresh fresh').2.recorded sessionId =
      s.recorded sessionId ++ s.recorded sessionId := by
  rw [rebuildCheckpoints]
  simp only
  generalize hcleared : ({ s with
    checkpoints := deleteWhere (fun cp => cp.sessionId = sessionId) s.checkpoints
    bundles := deleteWhere (fun b => b.1 = sessionId) s.bundles } : Service) = cleared
  have hrecorded : cleared.recorded sessionId = s.recorded sessionId := by
    rw [← hcleared]
    rfl
  have hupdate := recorded_update cfg cleared sessionId .history fresh
  rw [Batch.read, hrecorded] at hupdate
  split
  · rename_i hempty
    rw [Batch.read, hrecorded] at hempty
    rw [hrecorded, hempty]
    rfl
  · split
    · rename_i heq
      rw [heq] at hupdate
      exact hupdate
    · rename_i heq
      rw [heq] at hupdate
      rw [Service.recorded, allEvents_maybeCheckpoint]
      exact hupdate

/-- A call of `update` with a batch of the caller. -/
structure UpdateCall where
  sessionId : String
  events : List DeltaEvent
  fresh : Fresh
  nonempty : events ≠ []

def step (s : Service) (call : UpdateCall) : Service := (update cfg s call.sessionId (.given call.events) call.fresh).2

def started (persisted : Option (List PersistedRow)) : Service := { persisted }

theorem view_run_of_forall_ne {sessionId : String} {calls : List UpdateCall} (h : ∀ call ∈ calls, call.sessionId ≠ sessionId)
    (s : Service) : (run (step cfg) s calls).view sessionId = s.view sessionId := by
  induction calls generalizing s with
  | nil => rfl
  | cons call calls ih =>
    have hne : sessionId ≠ call.sessionId := fun heq => h call (.head _) heq.symm
    rw [run_cons, ih fun other hother => h other (.tail _ hother)]
    exact view_update_of_ne cfg hne s _ _

theorem recorded_run (sessionId : String) (calls : List UpdateCall) (s : Service) :
    (run (step cfg) s calls).recorded sessionId =
      s.recorded sessionId ++ (calls.filter fun call => call.sessionId = sessionId).flatMap UpdateCall.events := by
  induction calls generalizing s with
  | nil => simp
  | cons call calls ih =>
    rw [run_cons, ih]
    by_cases hsame : call.sessionId = sessionId
    · have hstep : (step cfg s call).recorded sessionId = s.recorded sessionId ++ call.events := by
        rw [← hsame]
        exact recorded_update cfg s call.sessionId (.given call.events) call.fresh
      simp [hstep, hsame]
    · have hne : sessionId ≠ call.sessionId := fun heq => hsame heq.symm
      have hstep : (step cfg s call).recorded sessionId = s.recorded sessionId :=
        congrArg Prod.fst (view_update_of_ne cfg hne s (.given call.events) call.fresh)
      simp [hstep, hsame]

theorem recorded_run_eq_nil_iff (sessionId : String) (calls : List UpdateCall) (persisted : Option (List PersistedRow)) :
    (run (step cfg) (started persisted) calls).recorded sessionId = [] ↔ ∀ call ∈ calls, call.sessionId ≠ sessionId := by
  have hstart : (started persisted).recorded sessionId = [] := rfl
  rw [recorded_run, hstart, List.nil_append, List.flatMap_eq_nil_iff]
  constructor
  · intro h call hcall hsame
    exact call.nonempty (h call (List.mem_filter.mpr ⟨hcall, decide_eq_true hsame⟩))
  · intro h call hcall
    obtain ⟨hmem, hsame⟩ := List.mem_filter.mp hcall
    exact absurd (of_decide_eq_true hsame) (h call hmem)

def Service.tiers (s : Service) (sessionId : String) : List TierEntry :=
  ((s.found sessionId).map CompressionBundle.tiers).getD []

def Service.summary (s : Service) (sessionId : String) : String :=
  ((s.found sessionId).map CompressionBundle.summaryText).getD ""

/-- A rebuild that leaves the tiers, the summary and the history of the session. -/
structure SameSession (s t : Service) (sessionId : String) : Prop where
  tiers : t.tiers sessionId = s.tiers sessionId
  summary : t.summary sessionId = s.summary sessionId
  recorded : t.recorded sessionId = s.recorded sessionId

/-- A rebuild without events succeeds and keeps the session, and so does a second one. -/
def Reproduces (s : Service) (sessionId : String) (first second : Fresh × Fresh) : Prop :=
  let rebuilt := rebuildCheckpoints cfg s sessionId none first.1 first.2
  let again := rebuildCheckpoints cfg rebuilt.2 sessionId none second.1 second.2
  (∃ ids, rebuilt.1 = .ok ids) ∧ SameSession s rebuilt.2 sessionId ∧
    (∃ ids, again.1 = .ok ids) ∧ SameSession rebuilt.2 again.2 sessionId

theorem rebuildCheckpoints_of_recorded_eq_nil {s : Service} {sessionId : String} (h : s.recorded sessionId = [])
    (fresh fresh' : Fresh) : rebuildCheckpoints cfg s sessionId none fresh fresh' =
      (.ok [], { s with
        checkpoints := deleteWhere (fun cp => cp.sessionId = sessionId) s.checkpoints
        bundles := deleteWhere (fun b => b.1 = sessionId) s.bundles }) := by
  rw [rebuildCheckpoints]
  exact if_pos h

/-- What `_get_or_create_bundle` finds when the service holds no bundle is in the session store. -/
theorem SameSession.of_bundle_eq_none {s t : Service} {sessionId : String} (hs : s.bundle sessionId = none)
    (ht : t.bundle sessionId = none) (hrow : t.latestRow sessionId = s.latestRow sessionId)
    (hrecorded : t.recorded sessionId = s.recorded sessionId) : SameSession s t sessionId := by
  have hfound : t.found sessionId = s.found sessionId := by rw [Service.found, Service.found, hs, ht, hrow]
  exact ⟨by rw [Service.tiers, hfound, Service.tiers], by rw [Service.summary, hfound, Service.summary], hrecorded⟩

theorem reproduces_of_view {s : Service} {sessionId : String} (hrecorded : s.recorded sessionId = [])
    (hbundle : s.bundle sessionId = none) (first second : Fresh × Fresh) : Reproduces cfg s sessionId first second := by
  rw [Reproduces, rebuildCheckpoints_of_recorded_eq_nil cfg hrecorded]
  generalize hcleared : ({ s with
    checkpoints := deleteWhere (fun cp => cp.sessionId = sessionId) s.checkpoints
    bundles := deleteWhere (fun b => b.1 = sessionId) s.bundles } : Service) = cleared
  have hnone : ∀ t : Service, Service.bundle { t with
      checkpoints := deleteWhere (fun cp => cp.sessionId = sessionId) t.checkpoints
      bundles := deleteWhere (fun b => b.1 = sessionId) t.bundles } sessionId = none := by
    intro t
    rw [Service.bundle, Option.map_eq_none_iff, lookup_eq_none]
    intro item hitem
    simpa using (List.mem_filter.mp hitem).2
  have hcleared_bundle : cleared.bundle sessionId = none := hcleared ▸ hnone s
  have hcleared_recorded : cleared.recorded sessionId = [] := by
    rw [← hrecorded, ← hcleared]
    rfl
  rw [rebuildCheckpoints_of_recorded_eq_nil cfg hcleared_recorded]
  refine ⟨⟨[], rfl⟩, ?_, ⟨[], rfl⟩, ?_⟩
  · apply SameSession.of_bundle_eq_none hbundle hcleared_bundle
    · rw [← hcleared]
      rfl
    · rw [hcleared_recorded, hrecorded]
  · exact SameSession.of_bundle_eq_none hcleared_bundle (hnone cleared) rfl rfl

/-- After any updates a rebuild reproduces the session just when none of them was for it. -/
theorem rebuild_reproduces_iff (persisted : Option (List PersistedRow)) (calls : List UpdateCall) (sessionId : String)
    (first second : Fresh × Fresh) :
    Reproduces cfg (run (step cfg) (started persisted) calls) sessionId first second ↔
      ∀ call ∈ calls, call.sessionId ≠ sessionId := by
  constructor
  · rintro ⟨-, hsame, -⟩
    have hdouble := hsame.recorded
    rw [recorded_rebuildCheckpoints] at hdouble
    rw [← recorded_run_eq_nil_iff cfg sessionId calls persisted]
    exact List.append_left_eq_self.mp hdouble
  · intro h
    have hview := view_run_of_forall_ne cfg h (started persisted)
    apply reproduces_of_view
    · exact congrArg Prod.fst hview
    · exact congrArg (fun view => view.2.1) hview

end Calls

def plainRuntime : Runtime := ⟨fun _ => "", id, fun _ => ""⟩

def plainConfig : Config := { runtime := plainRuntime, uuid5 := id }

def greetingEvents : List DeltaEvent :=
  [ { eventId := "e1", eventType := "turn.user", text := some "list files" },
    { eventId := "e2", eventType := "tool.result", payload := [("tool_name", .str "ls")], text := some "a.txt" } ]

def greetingFresh (n : String) : Fresh := ⟨"b" ++ n, "c" ++ n, "r" ++ n, "2026-01-0" ++ n⟩

def greetingCall : UpdateCall := ⟨"s", greetingEvents, greetingFresh "1", List.cons_ne_nil _ _⟩

/-- The rebuild reads the two events twice: the summary, the digests and the history are doubled. -/
theorem rebuild_doubles_history :
    let updated := run (step plainConfig) (started none) [greetingCall]
    let rebuilt := (rebuildCheckpoints plainConfig updated "s" none (greetingFresh "2") (greetingFresh "3")).2
    (∀ entry ∈ updated.tiers "s", entry.tokenCount ≤ plainConfig.budgets.capForTier entry.tierType) ∧
    updated.summary "s" = "list files" ∧ rebuilt.summary "s" = "list files list files" ∧
    (updated.tiers "s").length = 2 ∧ (rebuilt.tiers "s").length = 3 ∧
    rebuilt.recorded "s" = greetingEvents ++ greetingEvents ∧
    ¬ Reproduces plainConfig updated "s" (greetingFresh "2", greetingFresh "3") (greetingFresh "4", greetingFresh "5") := by
  have hrecorded : (run (step plainConfig) (started none) [greetingCall]).recorded "s" = greetingEvents := by decide +kernel
  refine ⟨by decide +kernel, by decide +kernel, by decide +kernel, by decide +kernel, by decide +kernel, ?_, ?_⟩
  · rw [recorded_rebuildCheckpoints, hrecorded]
  · rintro ⟨-, hsame, -⟩
    have hdouble := hsame.recorded
    rw [recorded_rebuildCheckpoints, hrecorded] at hdouble
    exact List.cons_ne_nil _ _ (List.append_left_eq_self.mp hdouble)

end OpenMinion.CompactionRebuild
