import OpenMinion.JsonValues
import OpenMinion.TransitionRuns
import Mathlib.Data.List.Nodup
import Mathlib.Logic.Function.Basic

/-!
# Submissions to memory stores

A process remembers which kinds and keys it has submitted, for all stores together; a queue remembers those of its own
drains. What a store answers is given with the action.
-/
namespace OpenMinion.SubmissionQueues
open JsonValues TransitionRuns

inductive PayloadKind where
  | memoryCandidate
  | episode
  | outcome
  | artifact
  | retrievalFeedback
  | approvedBlock
  | document
  | explicitLink
  | tag
  | property
  | fact
  | retrievalEvent
  | entityCandidate
  | entityAliasCandidate
  | factCandidate
  | contradictionDecision
  | entitySummary
  | episodeEvent
  | episodeStep
  | decision
  | procedure
  deriving DecidableEq

inductive SubmissionTrustMode where
  | direct
  | candidate
  deriving DecidableEq

structure SubmissionNamespace where
  tenantId : Option String := none
  orgId : Option String := none
  userId : Option String := none
  agentId : Option String := none
  sessionId : Option String := none
  conversationId : Option String := none
  projectId : Option String := none
  graphId : Option String := none
  deriving DecidableEq

structure SubmissionEnvelope where
  submissionNamespace : SubmissionNamespace
  payloadKind : PayloadKind
  payload : Dict
  idempotencyKey : String
  trustMode : SubmissionTrustMode := .direct
  schemaVersion : String := "openminion_sophiagraph_submission.v1"
  deriving DecidableEq

def SubmissionEnvelope.dedupKey (e : SubmissionEnvelope) : PayloadKind × String := (e.payloadKind, e.idempotencyKey)

inductive StoreMethod where
  | putCandidate
  | putMemoryBlock
  | putLink
  | putRecord
  | putEntity
  | putEntityAlias
  | putFact
  | recordContradiction
  | putEntitySummary
  | putEpisode
  | putEpisodeStep
  | putDecision
  | putProcedure
  deriving DecidableEq

/-- The method of `_dispatch_entity_episode`; an envelope of candidates is stored as one. -/
def entityEpisodeMethod (trustMode : SubmissionTrustMode) (method : StoreMethod) : StoreMethod :=
  if trustMode = .candidate then .putCandidate else method

def storeMethod (e : SubmissionEnvelope) : StoreMethod :=
  match e.payloadKind with
  | .memoryCandidate => .putCandidate
  | .approvedBlock => .putMemoryBlock
  | .explicitLink => .putLink
  | .episode | .outcome | .fact | .document | .retrievalEvent | .retrievalFeedback | .artifact => .putRecord
  | .tag | .property => .putRecord
  | .entityCandidate => entityEpisodeMethod e.trustMode .putEntity
  | .entityAliasCandidate => entityEpisodeMethod e.trustMode .putEntityAlias
  | .factCandidate => entityEpisodeMethod e.trustMode .putFact
  | .contradictionDecision => entityEpisodeMethod e.trustMode .recordContradiction
  | .entitySummary => entityEpisodeMethod e.trustMode .putEntitySummary
  | .episodeEvent => entityEpisodeMethod e.trustMode .putEpisode
  | .episodeStep => entityEpisodeMethod e.trustMode .putEpisodeStep
  | .decision => entityEpisodeMethod e.trustMode .putDecision
  | .procedure => entityEpisodeMethod e.trustMode .putProcedure

inductive CallReply where
  | writes (objectId : Option String)
  | raises (errorType message : String)
  /-- The store has written when it raises. -/
  | raisesAfterWrite (errorType message : String)
  deriving DecidableEq

structure StoreReply where
  /-- `get_record` finds the target of a tag or a property. -/
  targetFound : Bool := true
  call : CallReply
  deriving DecidableEq

structure Written where
  method : StoreMethod
  envelope : SubmissionEnvelope
  deriving DecidableEq

inductive SubmissionError where
  | schemaVersion (found : String)
  | missingSessionId
  | missingTarget (kind : PayloadKind)
  | targetNotFound (kind : PayloadKind)
  | backend (errorType message : String)
  deriving DecidableEq

inductive ResultCode where
  | submitted
  | deduped
  | schemaVersionMismatch
  | validationError
  | backendFailure
  | unknown
  deriving DecidableEq

structure SubmissionResult where
  ok : Bool
  envelopeIdempotencyKey : String
  payloadKind : PayloadKind
  code : ResultCode
  objectId : Option String := none
  deduped : Bool := false
  error : Option SubmissionError := none
  deriving DecidableEq

def failedResult (e : SubmissionEnvelope) (code : ResultCode) (error : SubmissionError) : SubmissionResult :=
  { ok := false, envelopeIdempotencyKey := e.idempotencyKey, payloadKind := e.payloadKind, code, error := some error }

def dedupedResult (e : SubmissionEnvelope) : SubmissionResult :=
  { ok := true, envelopeIdempotencyKey := e.idempotencyKey, payloadKind := e.payloadKind, code := .deduped, deduped := true }

def submittedResult (e : SubmissionEnvelope) (objectId : Option String) : SubmissionResult :=
  { ok := true, envelopeIdempotencyKey := e.idempotencyKey, payloadKind := e.payloadKind, code := .submitted, objectId }

def validationError (e : SubmissionEnvelope) (reply : StoreReply) : Option SubmissionError :=
  match e.payloadKind with
  | .memoryCandidate =>
    if (Dict.get e.payload "session_id").truthy || (e.submissionNamespace.sessionId.getD "" ≠ "") then none
    else some .missingSessionId
  | .tag | .property =>
    if !(Dict.get e.payload "target_record_id").truthy then some (.missingTarget e.payloadKind)
    else if !reply.targetFound then some (.targetNotFound e.payloadKind)
    else none
  | _ => none

structure Target where
  seen : List (PayloadKind × String) := []
  written : List Written := []

/-- `submit_envelope`. With `raise_on_failure` a failed result is raised. -/
def submitEnvelope (t : Target) (e : SubmissionEnvelope) (reply : StoreReply) : SubmissionResult × Target :=
  if e.schemaVersion ≠ "openminion_sophiagraph_submission.v1" then
    (failedResult e .schemaVersionMismatch (.schemaVersion e.schemaVersion), t)
  else if e.dedupKey ∈ t.seen then (dedupedResult e, t)
  else
    match validationError e reply with
    | some error => (failedResult e .validationError error, t)
    | none =>
      match reply.call with
      | .writes objectId => (submittedResult e objectId, ⟨t.seen ++ [e.dedupKey], t.written ++ [⟨storeMethod e, e⟩]⟩)
      | .raises errorType message => (failedResult e .backendFailure (.backend errorType message), t)
      | .raisesAfterWrite errorType message =>
        (failedResult e .backendFailure (.backend errorType message), { t with written := t.written ++ [⟨storeMethod e, e⟩] })

structure QueueAuditEntry where
  envelopeIdempotencyKey : String
  payloadKind : PayloadKind
  attempt : ℕ
  code : ResultCode
  ok : Bool
  exhausted : Bool := false
  error : Option SubmissionError := none
  deriving DecidableEq

def auditEntry (e : SubmissionEnvelope) (attempt : ℕ) (result : SubmissionResult) : QueueAuditEntry :=
  { envelopeIdempotencyKey := e.idempotencyKey, payloadKind := e.payloadKind, attempt, code := result.code, ok := result.ok,
    error := result.error }

structure SubmissionQueue where
  maxAttempts : ℕ := 3
  positive : 0 < maxAttempts := by decide
  items : List SubmissionEnvelope := []
  audit : List QueueAuditEntry := []
  completedKeys : List (PayloadKind × String) := []

/-- The loop of `_run_with_retry`, with the attempts that are left and the last result. -/
def retryLoop (e : SubmissionEnvelope) (replies : ℕ → StoreReply) :
    ℕ → ℕ → Option SubmissionResult → Target → SubmissionResult × List QueueAuditEntry × Target
  | 0, attempts, last, t =>
    let result := last.getD
      { ok := false, envelopeIdempotencyKey := e.idempotencyKey, payloadKind := e.payloadKind, code := .unknown }
    (result, [{ auditEntry e attempts result with ok := false, exhausted := true }], t)
  | left + 1, attempts, _, t =>
    let (result, after) := submitEnvelope t e (replies attempts)
    let entry := auditEntry e (attempts + 1) result
    if result.ok then (result, [entry], after)
    else if result.code = .validationError then
      (result, [entry, { auditEntry e (attempts + 1) result with ok := false, exhausted := true }], after)
    else
      let (final, entries, after) := retryLoop e replies left (attempts + 1) (some result) after
      (final, entry :: entries, after)

def runWithRetry (maxAttempts : ℕ) (e : SubmissionEnvelope) (replies : ℕ → StoreReply) (t : Target) :
    SubmissionResult × List QueueAuditEntry × Target := retryLoop e replies maxAttempts 0 none t

section Process

variable {QueueId StoreId : Type} [DecidableEq QueueId] [DecidableEq StoreId]

structure Process (QueueId StoreId : Type) where
  /-- `_SEEN_IDEMPOTENCY_KEYS`. -/
  seen : List (PayloadKind × String) := []
  queues : QueueId → SubmissionQueue
  written : StoreId → List Written := fun _ => []

def Process.target (p : Process QueueId StoreId) (s : StoreId) : Target := ⟨p.seen, p.written s⟩

def Process.setTarget (p : Process QueueId StoreId) (s : StoreId) (t : Target) : Process QueueId StoreId :=
  { p with seen := t.seen, written := Function.update p.written s t.written }

def Process.setQueue (p : Process QueueId StoreId) (q : QueueId) (queue : SubmissionQueue) : Process QueueId StoreId :=
  { p with queues := Function.update p.queues q queue }

structure Report (StoreId : Type) where
  envelope : SubmissionEnvelope
  store : StoreId
  result : SubmissionResult

def drainItem (p : Process QueueId StoreId) (q : QueueId) (s : StoreId) (e : SubmissionEnvelope) (replies : ℕ → StoreReply) :
    Report StoreId × Process QueueId StoreId :=
  let queue := p.queues q
  if e.dedupKey ∈ queue.completedKeys then
    (⟨e, s, dedupedResult e⟩, p.setQueue q { queue with audit := queue.audit ++ [auditEntry e 0 (dedupedResult e)] })
  else
    let (result, entries, t) := runWithRetry queue.maxAttempts e replies (p.target s)
    (⟨e, s, result⟩, (p.setTarget s t).setQueue q { queue with
      audit := queue.audit ++ entries
      completedKeys := if result.ok then queue.completedKeys ++ [e.dedupKey] else queue.completedKeys })

/-- The items of a drain, one after the other; `replies` is by item and attempt. -/
def drainItems (q : QueueId) (s : StoreId) (replies : ℕ → ℕ → StoreReply) :
    ℕ → List SubmissionEnvelope → Process QueueId StoreId → List (Report StoreId) × Process QueueId StoreId
  | _, [], p => ([], p)
  | i, e :: items, p =>
    let (report, p) := drainItem p q s e (replies i)
    let (reports, p) := drainItems q s replies (i + 1) items p
    (report :: reports, p)

inductive Action (QueueId StoreId : Type) where
  | enqueue (q : QueueId) (e : SubmissionEnvelope)
  | drain (q : QueueId) (s : StoreId) (replies : ℕ → ℕ → StoreReply)
  | submit (s : StoreId) (e : SubmissionEnvelope) (raiseOnFailure : Bool) (reply : StoreReply)

def perform (p : Process QueueId StoreId) : Action QueueId StoreId → List (Report StoreId) × Process QueueId StoreId
  | .enqueue q e => ([], p.setQueue q { p.queues q with items := (p.queues q).items ++ [e] })
  | .drain q s replies =>
    drainItems q s replies 0 (p.queues q).items (p.setQueue q { p.queues q with items := [] })
  | .submit s e raiseOnFailure reply =>
    let (result, t) := submitEnvelope (p.target s) e reply
    -- a failed result is raised and not reported
    (if raiseOnFailure && !result.ok then [] else [⟨e, s, result⟩], p.setTarget s t)

def stepAction (p : Process QueueId StoreId) (a : Action QueueId StoreId) : Process QueueId StoreId := (perform p a).2

def reports : Process QueueId StoreId → List (Action QueueId StoreId) → List (Report StoreId)
  | _, [] => []
  | p, a :: as => (perform p a).1 ++ reports (stepAction p a) as

def submits (p : Process QueueId StoreId) : Action QueueId StoreId → List (SubmissionEnvelope × StoreId)
  | .enqueue _ _ => []
  | .drain q s _ => (p.queues q).items.map fun e => (e, s)
  | .submit s e _ _ => [(e, s)]

def submissions : Process QueueId StoreId → List (Action QueueId StoreId) → List (SubmissionEnvelope × StoreId)
  | _, [] => []
  | p, a :: as => submits p a ++ submissions (stepAction p a) as

def fresh (maxAttempts : QueueId → {n : ℕ // 0 < n}) : Process QueueId StoreId where
  queues q := { maxAttempts := (maxAttempts q).1, positive := (maxAttempts q).2 }

end Process

def StoreReply.Atomic (reply : StoreReply) : Prop := ∀ errorType message, reply.call ≠ .raisesAfterWrite errorType message

/-- A submission fails and changes nothing, or it is known already, or it is written. -/
def Submitted (t : Target) (e : SubmissionEnvelope) (ok : Bool) (after : Target) : Prop :=
  (ok = false ∧ after = t) ∨ (ok = true ∧ e.dedupKey ∈ t.seen ∧ after = t) ∨
    (ok = true ∧ e.dedupKey ∉ t.seen ∧ after = ⟨t.seen ++ [e.dedupKey], t.written ++ [⟨storeMethod e, e⟩]⟩)

theorem submitted_submitEnvelope (t : Target) (e : SubmissionEnvelope) {reply : StoreReply} (h : reply.Atomic) :
    Submitted t e (submitEnvelope t e reply).1.ok (submitEnvelope t e reply).2 := by
  rw [submitEnvelope]
  split
  · exact .inl ⟨rfl, rfl⟩
  split
  · next hseen => exact .inr (.inl ⟨rfl, hseen, rfl⟩)
  · next hnew =>
    split
    · exact .inl ⟨rfl, rfl⟩
    · split
      · exact .inr (.inr ⟨rfl, hnew, rfl⟩)
      · exact .inl ⟨rfl, rfl⟩
      · next errorType message hcall => exact absurd hcall (h errorType message)

def SubmissionResult.Names (result : SubmissionResult) (e : SubmissionEnvelope) : Prop :=
  result.envelopeIdempotencyKey = e.idempotencyKey ∧ result.payloadKind = e.payloadKind

theorem names_submitEnvelope (t : Target) (e : SubmissionEnvelope) (reply : StoreReply) :
    (submitEnvelope t e reply).1.Names e := by
  rw [submitEnvelope]
  split
  · exact ⟨rfl, rfl⟩
  split
  · exact ⟨rfl, rfl⟩
  split
  · exact ⟨rfl, rfl⟩
  split
  · exact ⟨rfl, rfl⟩
  · exact ⟨rfl, rfl⟩
  · exact ⟨rfl, rfl⟩

theorem submitted_retryLoop (e : SubmissionEnvelope) {replies : ℕ → StoreReply} (h : ∀ i, (replies i).Atomic) (left attempts : ℕ)
    {last : Option SubmissionResult} (hlast : ∀ result ∈ last, result.ok = false) (t : Target) :
    Submitted t e (retryLoop e replies left attempts last t).1.ok (retryLoop e replies left attempts last t).2.2 := by
  induction left generalizing attempts last t with
  | zero =>
    refine .inl ⟨?_, rfl⟩
    rw [retryLoop]
    cases last with
    | none => rfl
    | some result => exact hlast result rfl
  | succ left ih =>
    have hsubmitted := submitted_submitEnvelope t e (h attempts)
    rw [retryLoop]
    dsimp only
    split
    · exact hsubmitted
    · next hfailed =>
      have hunchanged : (submitEnvelope t e (replies attempts)).2 = t := by
        rcases hsubmitted with ⟨-, hsame⟩ | ⟨hok, -⟩ | ⟨hok, -⟩
        · exact hsame
        · exact absurd hok hfailed
        · exact absurd hok hfailed
      split
      · exact hsubmitted
      · rw [hunchanged]
        refine ih (attempts + 1) ?_ t
        intro result hresult
        cases hresult
        exact Bool.eq_false_iff.mpr hfailed

theorem names_retryLoop (e : SubmissionEnvelope) (replies : ℕ → StoreReply) (left attempts : ℕ) {last : Option SubmissionResult}
    (hlast : ∀ result ∈ last, result.Names e) (t : Target) : (retryLoop e replies left attempts last t).1.Names e := by
  induction left generalizing attempts last t with
  | zero =>
    rw [retryLoop]
    cases last with
    | none => exact ⟨rfl, rfl⟩
    | some result => exact hlast result rfl
  | succ left ih =>
    have hnames := names_submitEnvelope t e (replies attempts)
    rw [retryLoop]
    dsimp only
    split
    · exact hnames
    · split
      · exact hnames
      · refine ih (attempts + 1) ?_ _
        intro result hresult
        cases hresult
        exact hnames

section Registries

variable {QueueId StoreId : Type} {p p' : Process QueueId StoreId} {all : List (SubmissionEnvelope × StoreId)}

/-- Nothing is forgotten. -/
structure Grows (p p' : Process QueueId StoreId) : Prop where
  seen : ∀ k ∈ p.seen, k ∈ p'.seen
  written : ∀ s, ∀ w ∈ p.written s, w ∈ p'.written s

theorem Grows.refl (p : Process QueueId StoreId) : Grows p p := ⟨fun _ h => h, fun _ _ h => h⟩

theorem Grows.trans {p'' : Process QueueId StoreId} (h : Grows p p') (h' : Grows p' p'') : Grows p p'' :=
  ⟨fun k hk => h'.seen k (h.seen k hk), fun s w hw => h'.written s w (h.written s w hw)⟩

theorem Grows.setQueue [DecidableEq QueueId] (h : Grows p p') (q : QueueId) (queue : SubmissionQueue) :
    Grows p (p'.setQueue q queue) := ⟨h.seen, h.written⟩

/-- An envelope of the kind, the key and the namespace was written to the store. -/
def Held (p : Process QueueId StoreId) (s : StoreId) (e : SubmissionEnvelope) : Prop :=
  ∃ w ∈ p.written s, w.envelope.dedupKey = e.dedupKey ∧ w.envelope.submissionNamespace = e.submissionNamespace

theorem Held.grows {s : StoreId} {e : SubmissionEnvelope} (h : Held p s e) (hgrows : Grows p p') : Held p' s e := by
  obtain ⟨w, hw, hidentity⟩ := h
  exact ⟨w, hgrows.written s w hw, hidentity⟩

/-- A kind and a key go to one store and one namespace. -/
def Consistent (all : List (SubmissionEnvelope × StoreId)) : Prop :=
  ∀ x ∈ all, ∀ y ∈ all, x.1.dedupKey = y.1.dedupKey →
    x.2 = y.2 ∧ x.1.submissionNamespace = y.1.submissionNamespace

/-- The registries know what was written, and it was written where it was submitted. -/
structure Registered (all : List (SubmissionEnvelope × StoreId)) (p : Process QueueId StoreId) : Prop where
  seen : ∀ k ∈ p.seen, ∃ x ∈ all, x.1.dedupKey = k ∧ Held p x.2 x.1
  written : ∀ s, ∀ w ∈ p.written s, w.envelope.dedupKey ∈ p.seen
  once : ∀ s, ((p.written s).map fun w => w.envelope.dedupKey).Nodup
  completed : ∀ q, ∀ k ∈ (p.queues q).completedKeys, k ∈ p.seen

theorem Registered.held (h : Registered all p) (hall : Consistent all) {s : StoreId} {e : SubmissionEnvelope} (hmem : (e, s) ∈ all)
    (hseen : e.dedupKey ∈ p.seen) : Held p s e := by
  obtain ⟨x, hx, hkey, w, hw, hwkey, hwspace⟩ := h.seen _ hseen
  obtain ⟨hstore, hspace⟩ := hall x hx (e, s) hmem hkey
  rw [hstore] at hw
  exact ⟨w, hw, hwkey.trans hkey, hwspace.trans hspace⟩

variable [DecidableEq QueueId] [DecidableEq StoreId]

omit [DecidableEq StoreId] in
theorem Registered.setQueue (h : Registered all p) (q : QueueId) {queue : SubmissionQueue}
    (hcompleted : ∀ k ∈ queue.completedKeys, k ∈ p.seen) : Registered all (p.setQueue q queue) where
  seen := h.seen
  written := h.written
  once := h.once
  completed := by
    intro r k hk
    change k ∈ (Function.update p.queues q queue r).completedKeys at hk
    by_cases hr : r = q
    · rw [hr, Function.update_self] at hk
      exact hcompleted k hk
    · rw [Function.update_of_ne hr] at hk
      exact h.completed r k hk

omit [DecidableEq QueueId] in
theorem Registered.setTarget (h : Registered all p) (hall : Consistent all) {s : StoreId} {e : SubmissionEnvelope}
    (hmem : (e, s) ∈ all) {ok : Bool} {t : Target} (ht : Submitted (p.target s) e ok t) :
    Registered all (p.setTarget s t) ∧ Grows p (p.setTarget s t) ∧
      (ok = true → e.dedupKey ∈ (p.setTarget s t).seen ∧ Held (p.setTarget s t) s e) := by
  have hunchanged : p.setTarget s (p.target s) = p := by
    rw [Process.setTarget, Process.target, Function.update_eq_self]
  rcases ht with ⟨rfl, rfl⟩ | ⟨rfl, hseen, rfl⟩ | ⟨rfl, hnew, rfl⟩
  · rw [hunchanged]
    refine ⟨h, .refl p, ?_⟩
    intro hok
    cases hok
  · rw [hunchanged]
    exact ⟨h, .refl p, fun _ => ⟨hseen, h.held hall hmem hseen⟩⟩
  · have hwritten : ∀ r, (p.setTarget s ⟨(p.target s).seen ++ [e.dedupKey], (p.target s).written ++ [⟨storeMethod e, e⟩]⟩).written r =
        p.written r ++ if r = s then [⟨storeMethod e, e⟩] else [] := by
      intro r
      change Function.update p.written s (p.written s ++ [⟨storeMethod e, e⟩]) r = _
      by_cases hr : r = s
      · rw [hr, Function.update_self, if_pos rfl]
      · rw [Function.update_of_ne hr, if_neg hr, List.append_nil]
    have hgrows : Grows p (p.setTarget s ⟨(p.target s).seen ++ [e.dedupKey], (p.target s).written ++ [⟨storeMethod e, e⟩]⟩) := by
      constructor
      · intro k hk
        exact List.mem_append_left _ hk
      · intro r w hw
        rw [hwritten]
        exact List.mem_append_left _ hw
    have hheld : Held (p.setTarget s ⟨(p.target s).seen ++ [e.dedupKey], (p.target s).written ++ [⟨storeMethod e, e⟩]⟩) s e := by
      refine ⟨⟨storeMethod e, e⟩, ?_, rfl, rfl⟩
      rw [hwritten, if_pos rfl]
      exact List.mem_append_right _ (List.mem_singleton_self _)
    have hkey : e.dedupKey ∈ (p.setTarget s ⟨(p.target s).seen ++ [e.dedupKey],
        (p.target s).written ++ [⟨storeMethod e, e⟩]⟩).seen := List.mem_append_right _ (List.mem_singleton_self _)
    refine ⟨⟨?_, ?_, ?_, ?_⟩, hgrows, fun _ => ⟨hkey, hheld⟩⟩
    · intro k hk
      rcases List.mem_append.mp hk with hold | hlast
      · obtain ⟨x, hx, hxkey, hxheld⟩ := h.seen k hold
        exact ⟨x, hx, hxkey, hxheld.grows hgrows⟩
      · exact ⟨(e, s), hmem, (List.mem_singleton.mp hlast).symm, hheld⟩
    · intro r w hw
      rw [hwritten] at hw
      rcases List.mem_append.mp hw with hold | hlast
      · exact List.mem_append_left _ (h.written r w hold)
      · by_cases hr : r = s
        · rw [if_pos hr, List.mem_singleton] at hlast
          rw [hlast]
          exact hkey
        · rw [if_neg hr] at hlast
          cases hlast
    · intro r
      rw [hwritten, List.map_append, List.nodup_append]
      refine ⟨h.once r, ?_, ?_⟩
      · by_cases hr : r = s
        · rw [if_pos hr]
          exact List.nodup_singleton _
        · rw [if_neg hr]
          exact List.nodup_nil
      · intro a ha b hb hab
        obtain ⟨w, hw, rfl⟩ := List.mem_map.mp ha
        by_cases hr : r = s
        · rw [if_pos hr, List.map_singleton, List.mem_singleton] at hb
          -- the key is new to the process
          rw [hb] at hab
          exact hnew (hab ▸ h.written r w hw)
        · rw [if_neg hr] at hb
          cases hb
    · intro q k hk
      exact List.mem_append_left _ (h.completed q k hk)

/-- What the report of a successful submission promises. -/
def Report.Kept (p : Process QueueId StoreId) (r : Report StoreId) : Prop := r.result.ok = true → Held p r.store r.envelope

omit [DecidableEq QueueId] [DecidableEq StoreId] in
theorem Report.Kept.grows {r : Report StoreId} (h : r.Kept p) (hgrows : Grows p p') : r.Kept p' := fun hok => (h hok).grows hgrows

theorem Registered.drainItem (h : Registered all p) (hall : Consistent all) (q : QueueId) {s : StoreId} {e : SubmissionEnvelope}
    (hmem : (e, s) ∈ all) {replies : ℕ → StoreReply} (hatomic : ∀ i, (replies i).Atomic) :
    Registered all (drainItem p q s e replies).2 ∧ Grows p (drainItem p q s e replies).2 ∧
      (drainItem p q s e replies).1.Kept (drainItem p q s e replies).2 := by
  rw [SubmissionQueues.drainItem]
  dsimp only
  split
  · next hcompleted =>
    have hseen := h.completed q _ hcompleted
    exact ⟨h.setQueue q (h.completed q), (Grows.refl p).setQueue q _, fun _ => h.held hall hmem hseen⟩
  · have hsubmitted := @submitted_retryLoop e replies hatomic (p.queues q).maxAttempts 0 none (by simp) (p.target s)
    obtain ⟨hregistered, hgrows, hkept⟩ := h.setTarget hall hmem hsubmitted
    refine ⟨hregistered.setQueue q ?_, hgrows.setQueue q _, fun hok => (hkept hok).2⟩
    intro k hk
    dsimp only at hk
    split at hk
    · next hok =>
      rcases List.mem_append.mp hk with hold | hlast
      · exact hgrows.seen k (h.completed q k hold)
      · rw [List.mem_singleton.mp hlast]
        exact (hkept hok).1
    · exact hgrows.seen k (h.completed q k hk)

theorem Registered.drainItems (hall : Consistent all) (q : QueueId) {s : StoreId} {replies : ℕ → ℕ → StoreReply}
    (hatomic : ∀ i j, (replies i j).Atomic) (items : List SubmissionEnvelope) (hmem : ∀ e ∈ items, (e, s) ∈ all) (i : ℕ)
    {p : Process QueueId StoreId} (h : Registered all p) :
    Registered all (drainItems q s replies i items p).2 ∧ Grows p (drainItems q s replies i items p).2 ∧
      ∀ r ∈ (drainItems q s replies i items p).1, r.Kept (drainItems q s replies i items p).2 := by
  induction items generalizing i p with
  | nil => exact ⟨h, .refl p, by simp [SubmissionQueues.drainItems]⟩
  | cons e items ih =>
    obtain ⟨hitem, hgrows, hkept⟩ := h.drainItem hall q (hmem e List.mem_cons_self) (hatomic i)
    obtain ⟨hrest, hrestgrows, hrestkept⟩ := ih (fun e he => hmem e (List.mem_cons_of_mem _ he)) (i + 1) hitem
    rw [SubmissionQueues.drainItems]
    refine ⟨hrest, hgrows.trans hrestgrows, ?_⟩
    intro r hr
    rcases List.mem_cons.mp hr with rfl | hr
    · exact hkept.grows hrestgrows
    · exact hrestkept r hr

theorem drainItems_envelopes (q : QueueId) (s : StoreId) (replies : ℕ → ℕ → StoreReply) (i : ℕ) (items : List SubmissionEnvelope)
    (p : Process QueueId StoreId) :
    (drainItems q s replies i items p).1.map Report.envelope = items ∧
      ∀ r ∈ (drainItems q s replies i items p).1, r.store = s ∧ r.result.Names r.envelope := by
  induction items generalizing i p with
  | nil => simp [drainItems]
  | cons e items ih =>
    have hitem : (drainItem p q s e (replies i)).1.envelope = e ∧ (drainItem p q s e (replies i)).1.store = s ∧
        (drainItem p q s e (replies i)).1.result.Names e := by
      rw [drainItem]
      dsimp only
      split
      · exact ⟨rfl, rfl, rfl, rfl⟩
      · exact ⟨rfl, rfl, @names_retryLoop e (replies i) _ 0 none (by simp) _⟩
    obtain ⟨hmap, hreports⟩ := ih (i + 1) (drainItem p q s e (replies i)).2
    rw [drainItems]
    refine ⟨?_, ?_⟩
    · rw [List.map_cons, hitem.1, hmap]
    · intro r hr
      rcases List.mem_cons.mp hr with rfl | hr
      · rw [hitem.1]
        exact hitem.2
      · exact hreports r hr

theorem drainItems_items (q : QueueId) (s : StoreId) (replies : ℕ → ℕ → StoreReply) (i : ℕ) (items : List SubmissionEnvelope)
    (p : Process QueueId StoreId) (r : QueueId) : ((drainItems q s replies i items p).2.queues r).items = (p.queues r).items := by
  induction items generalizing i p with
  | nil => rfl
  | cons e items ih =>
    rw [drainItems]
    refine (ih (i + 1) _).trans ?_
    rw [drainItem]
    by_cases hr : r = q
    · dsimp only
      split <;> simp [Process.setQueue, Process.setTarget, hr]
    · dsimp only
      split <;> simp [Process.setQueue, Process.setTarget, hr]

def Action.Atomic : Action QueueId StoreId → Prop
  | .enqueue _ _ => True
  | .drain _ _ replies => ∀ i j, (replies i j).Atomic
  | .submit _ _ _ reply => reply.Atomic

theorem Registered.perform (h : Registered all p) (hall : Consistent all) {a : Action QueueId StoreId} (hatomic : a.Atomic)
    (hmem : ∀ x ∈ submits p a, x ∈ all) :
    Registered all (perform p a).2 ∧ Grows p (perform p a).2 ∧ ∀ r ∈ (perform p a).1, r.Kept (perform p a).2 := by
  cases a with
  | enqueue q e =>
    refine ⟨h.setQueue q (h.completed q), (Grows.refl p).setQueue q _, ?_⟩
    simp [SubmissionQueues.perform]
  | drain q s replies =>
    have hstart : Registered all (p.setQueue q { p.queues q with items := [] }) := h.setQueue q (h.completed q)
    have hitems : ∀ e ∈ (p.queues q).items, (e, s) ∈ all := fun e he => hmem _ (List.mem_map_of_mem he)
    obtain ⟨hregistered, hgrows, hkept⟩ := Registered.drainItems hall q hatomic (p.queues q).items hitems 0 hstart
    exact ⟨hregistered, ((Grows.refl p).setQueue q _).trans hgrows, hkept⟩
  | submit s e raiseOnFailure reply =>
    obtain ⟨hregistered, hgrows, hkept⟩ := h.setTarget hall (hmem (e, s) (List.mem_singleton_self _))
      (submitted_submitEnvelope (p.target s) e hatomic)
    refine ⟨hregistered, hgrows, ?_⟩
    intro r hr
    rw [SubmissionQueues.perform] at hr
    dsimp only at hr
    split at hr
    · cases hr
    · rw [List.mem_singleton.mp hr]
      exact fun hok => (hkept hok).2

theorem registered_run {p : Process QueueId StoreId} (hall : Consistent all) (actions : List (Action QueueId StoreId))
    (hatomic : ∀ a ∈ actions, a.Atomic) (hmem : ∀ x ∈ submissions p actions, x ∈ all) (h : Registered all p) :
    Registered all (run stepAction p actions) ∧ Grows p (run stepAction p actions) ∧
      ∀ r ∈ reports p actions, r.Kept (run stepAction p actions) := by
  induction actions generalizing p with
  | nil => exact ⟨h, .refl p, by simp [reports]⟩
  | cons a actions ih =>
    obtain ⟨hstep, hgrows, hkept⟩ := h.perform hall (hatomic a List.mem_cons_self)
      (fun x hx => hmem x (List.mem_append_left _ hx))
    obtain ⟨hrun, hrungrows, hrunkept⟩ := ih (fun b hb => hatomic b (List.mem_cons_of_mem _ hb))
      (fun x hx => hmem x (List.mem_append_right _ hx)) hstep
    refine ⟨hrun, hgrows.trans hrungrows, ?_⟩
    intro r hr
    rcases List.mem_append.mp hr with hnow | hlater
    · exact (hkept r hnow).grows hrungrows
    · exact hrunkept r hlater

def Written.identity (w : Written) : PayloadKind × String × SubmissionNamespace :=
  (w.envelope.payloadKind, w.envelope.idempotencyKey, w.envelope.submissionNamespace)

/-- In a process that submits a kind and a key to one store and namespace only, to stores that raise only before they
write, what was reported as accepted is in its store, nothing is written twice, and a drain has one result for each
item. -/
theorem accepted_is_written (maxAttempts : QueueId → {n : ℕ // 0 < n}) (actions : List (Action QueueId StoreId))
    (hall : Consistent (submissions (fresh maxAttempts) actions)) (hatomic : ∀ a ∈ actions, a.Atomic) :
    (∀ r ∈ reports (fresh maxAttempts) actions, r.result.ok = true →
        Held (run stepAction (fresh maxAttempts) actions) r.store r.envelope) ∧
      (∀ s, (((run stepAction (fresh maxAttempts) actions).written s).map Written.identity).Nodup) ∧
      ∀ before q s replies after, actions = before ++ Action.drain q s replies :: after →
        let p := run stepAction (fresh maxAttempts) before
        (perform p (.drain q s replies)).1.map Report.envelope = (p.queues q).items ∧
          (∀ r ∈ (perform p (.drain q s replies)).1, r.store = s ∧ r.result.Names r.envelope) ∧
          ((perform p (.drain q s replies)).2.queues q).items = [] := by
  have hfresh : Registered (submissions (fresh maxAttempts) actions) (fresh maxAttempts) := by
    constructor
    · intro k hk
      cases hk
    · intro s w hw
      cases hw
    · intro s
      exact List.nodup_nil
    · intro q k hk
      cases hk
  obtain ⟨hrun, -, hkept⟩ := registered_run hall actions hatomic (fun _ hx => hx) hfresh
  refine ⟨hkept, ?_, ?_⟩
  · intro s
    have honce := hrun.once s
    refine List.Nodup.of_map (fun identity => (identity.1, identity.2.1)) ?_
    rw [List.map_map]
    exact honce
  · intro before q s replies after _ p
    obtain ⟨henvelopes, hnames⟩ := drainItems_envelopes q s replies 0 (p.queues q).items (p.setQueue q { p.queues q with items := [] })
    refine ⟨henvelopes, hnames, ?_⟩
    refine (drainItems_items q s replies 0 (p.queues q).items _ q).trans ?_
    simp [Process.setQueue]

def episode (agentId key : String) : SubmissionEnvelope :=
  { submissionNamespace := { agentId := some agentId }, payloadKind := .episode, payload := [], idempotencyKey := key }

def episodeActions : List (Action ℕ ℕ) :=
  [.submit 0 (episode "a" "k1") false ⟨true, .writes (some "rec-1")⟩, .enqueue 0 (episode "a" "k1"), .enqueue 0 (episode "a" "k2"),
    .drain 0 0 fun _ attempt => if attempt = 0 then ⟨true, .raises "OSError" "busy"⟩ else ⟨true, .writes (some "rec-2")⟩]

theorem episodeActions_written :
    ((run stepAction (fresh fun _ => ⟨3, by decide⟩) episodeActions).written 0).length = 2 ∧
      ∀ r ∈ reports (fresh fun _ => ⟨3, by decide⟩) episodeActions, r.result.ok = true →
        Held (run stepAction (fresh fun _ => ⟨3, by decide⟩) episodeActions) r.store r.envelope := by
  have hsubmissions : submissions (fresh fun _ => ⟨3, by decide⟩) episodeActions =
      [(episode "a" "k1", 0), (episode "a" "k1", 0), (episode "a" "k2", 0)] := rfl
  refine ⟨by decide +kernel, ?_⟩
  refine (accepted_is_written (fun _ => ⟨3, by decide⟩) episodeActions ?_ ?_).1
  · rw [hsubmissions, Consistent]
    decide +kernel
  · intro a ha
    simp only [episodeActions, List.mem_cons, List.not_mem_nil, or_false] at ha
    rcases ha with rfl | rfl | rfl | rfl
    · intro errorType message h
      cases h
    · trivial
    · trivial
    · intro i j errorType message h
      dsimp only at h
      split at h
      · cases h
      · cases h

/-- The same envelope for another store is accepted, and that store is empty. -/
theorem other_store_not_written :
    let actions : List (Action ℕ ℕ) :=
      [.submit 0 (episode "a" "k1") false ⟨true, .writes (some "rec-1")⟩, .submit 1 (episode "a" "k1") false ⟨true, .writes (some "rec-1")⟩]
    ∃ r ∈ reports (fresh fun _ => ⟨3, by decide⟩) actions, r.result.ok = true ∧
      ¬ Held (run stepAction (fresh fun _ => ⟨3, by decide⟩) actions) r.store r.envelope := by
  refine ⟨⟨episode "a" "k1", 1, dedupedResult (episode "a" "k1")⟩, ?_, rfl, ?_⟩
  · exact List.mem_cons_of_mem _ List.mem_cons_self
  · rintro ⟨w, hw, -⟩
    cases hw

end Registries

end OpenMinion.SubmissionQueues
