import OpenMinion.TurnInputQueue

/-!
# What a call does to the entries

The life of an entry is a path through its statuses. A call takes entries along an edge of that life in their places,
adds one at the end, or moves one; a move whose target is not found has already taken its entry out.
-/
namespace OpenMinion.TurnInputQueue
open ListPositions

/-- The edges that a call takes in place, apart from the reservation of the next input and the
start of a reserved one. -/
inductive Edge : Call → TurnInputIntent → TurnInputQueueStatus → TurnInputQueueStatus → Prop where
  | stay (call : Call) (intent : TurnInputIntent) (status : TurnInputQueueStatus) : Edge call intent status status
  | drop (call : Call) (intent : TurnInputIntent) : Edge call intent .queued .dropped
  | reserveSteering (call : Call) : Edge call .steerCurrent .queued .reserved
  | complete (call : Call) : Edge call .steerCurrent .reserved .completed
  | requeue (call : Call) (intent : TurnInputIntent) {status : TurnInputQueueStatus}
      (h : status = .reserved ∨ status = .running) : Edge call intent status .queued
  | reopen (queueIds : List String) (targetTraceId : String) :
      Edge (.compensateSteering queueIds targetTraceId) .steerCurrent .completed .queued
  | finish (call : Call) (intent : TurnInputIntent) {status : TurnInputQueueStatus}
      (h : (terminalEvent status).isSome) : Edge call intent .running status

/-- The same input, maybe in another status. -/
structure SameInput (e e' : TurnInputQueueEntry) : Prop where
  queueId : e'.queueId = e.queueId
  sessionId : e'.sessionId = e.sessionId
  agentId : e'.agentId = e.agentId
  text : e'.text = e.text
  intent : e'.intent = e.intent
  statusVersion : e.statusVersion ≤ e'.statusVersion

structure Touch (call : Call) (e e' : TurnInputQueueEntry) : Prop where
  same : SameInput e e'
  edge : Edge call e.intent e.status e'.status

theorem SameInput.refl (e : TurnInputQueueEntry) : SameInput e e := ⟨rfl, rfl, rfl, rfl, rfl, le_rfl⟩

theorem Touch.refl (call : Call) (e : TurnInputQueueEntry) : Touch call e e := ⟨.refl e, .stay call _ _⟩

def running (traceId now : String) (entry : TurnInputQueueEntry) : TurnInputQueueEntry :=
  { entry with
    status := .running, startedAt := some now, traceId := some traceId, statusVersion := entry.statusVersion + 1 }

def moved (entry : TurnInputQueueEntry) : TurnInputQueueEntry :=
  { entry with statusVersion := entry.statusVersion + 1 }

theorem sameInput_reserved (e : TurnInputQueueEntry) : SameInput e (reserved e) :=
  ⟨rfl, rfl, rfl, rfl, rfl, Nat.le_succ _⟩

theorem sameInput_running (traceId now : String) (e : TurnInputQueueEntry) : SameInput e (running traceId now e) :=
  ⟨rfl, rfl, rfl, rfl, rfl, Nat.le_succ _⟩

theorem sameInput_moved (e : TurnInputQueueEntry) : SameInput e (moved e) := ⟨rfl, rfl, rfl, rfl, rfl, Nat.le_succ _⟩

def TargetPresent (others : List TurnInputQueueEntry) (sessionId : String) (beforeQueueId afterQueueId : Option String) :
    Prop :=
  moveTarget beforeQueueId afterQueueId = "" ∨
    ∃ e ∈ others, e.sessionId = sessionId ∧ e.queueId = moveTarget beforeQueueId afterQueueId

/-- The result of a call and the entries that it leaves. -/
inductive Effect (q : Queue) : Call → Except TurnInputQueueError Reply → List TurnInputQueueEntry → Prop where
  | refused (call : Call) (error : TurnInputQueueError) : Effect q call (.error error) q.entries
  | found {request : EnqueueRequest} {newId now : String} {e : TurnInputQueueEntry} (h : e ∈ q.entries) :
      Effect q (.enqueue request newId now) (.ok (.entry e)) q.entries
  | accepted {request : EnqueueRequest} {newId now : String} {e : TurnInputQueueEntry} (hid : e.queueId = newId)
      (hstatus : e.status = .queued ∨ e.status = .steerDeferred ∧ e.intent = .steerCurrent)
      (hroom : pending q.entries e.sessionId < q.maxPendingPerSession) :
      Effect q (.enqueue request newId now) (.ok (.entry e)) (q.entries ++ [e])
  | touched {call : Call} {reply : Reply} {entries : List TurnInputQueueEntry}
      (hcall : ∀ request newId now, call ≠ .enqueue request newId now)
      (hstart : ∀ queueId traceId now, call ≠ .markRunning queueId traceId now)
      (h : List.Forall₂ (Touch call) q.entries entries) : Effect q call (.ok reply) entries
  | reserved {sessionId agentId : String} {expectedQueueId : Option String}
      {front back : List TurnInputQueueEntry} {e : TurnInputQueueEntry} (hsplit : q.entries = front ++ e :: back)
      (hnext : nextInput sessionId agentId e = true) (hfirst : ∀ x ∈ front, nextInput sessionId agentId x = false)
      (hfree : ∀ x ∈ q.entries, x.sessionId = sessionId → x.agentId = agentId → x.status ≠ .reserved) :
      Effect q (.reserveNext sessionId agentId expectedQueueId) (.ok (.optionalEntry (some (TurnInputQueue.reserved e))))
        (front ++ TurnInputQueue.reserved e :: back)
  | started {queueId trace traceId now : String} {front back : List TurnInputQueueEntry} {e : TurnInputQueueEntry}
      (hsplit : q.entries = front ++ e :: back) (hstatus : e.status = .reserved) :
      Effect q (.markRunning queueId trace now) (.ok (.entry (running traceId now e)))
        (front ++ running traceId now e :: back)
  | moved {sessionId queueId : String} {statusVersion : Option ℤ} {beforeQueueId afterQueueId : Option String}
      {front back entries : List TurnInputQueueEntry} {e : TurnInputQueueEntry} (hsplit : q.entries = front ++ e :: back)
      (htarget : TargetPresent (front ++ back) sessionId beforeQueueId afterQueueId)
      (h : entries.Perm (front ++ TurnInputQueue.moved e :: back)) :
      Effect q (.move sessionId queueId statusVersion beforeQueueId afterQueueId)
        (.ok (.entry (TurnInputQueue.moved e))) entries
  | lost {sessionId queueId : String} {statusVersion : Option ℤ} {beforeQueueId afterQueueId : Option String}
      {front back : List TurnInputQueueEntry} {e : TurnInputQueueEntry} (error : TurnInputQueueError)
      (hsplit : q.entries = front ++ e :: back) (htarget : ¬TargetPresent (front ++ back) sessionId beforeQueueId afterQueueId) :
      Effect q (.move sessionId queueId statusVersion beforeQueueId afterQueueId) (.error error) (front ++ back)

/-- What `perform` does is one of the effects. -/
def Described (q : Queue) (call : Call) : Prop := Effect q call (perform q call).1 (perform q call).2.entries

theorem forall₂_replace {R : TurnInputQueueEntry → TurnInputQueueEntry → Prop} (hrefl : ∀ e, R e e)
    {x y : TurnInputQueueEntry} (h : R x y) (front back : List TurnInputQueueEntry) :
    List.Forall₂ R (front ++ x :: back) (front ++ y :: back) := by
  have hsame : ∀ l : List TurnInputQueueEntry, List.Forall₂ R l l := fun l => List.forall₂_same.mpr fun e _ => hrefl e
  exact List.rel_append (hsame front) (.cons h (hsame back))

theorem forall₂_map {R : TurnInputQueueEntry → TurnInputQueueEntry → Prop} {f : TurnInputQueueEntry → TurnInputQueueEntry}
    {entries : List TurnInputQueueEntry} (h : ∀ e ∈ entries, R e (f e)) : List.Forall₂ R entries (entries.map f) := by
  rw [List.forall₂_map_right_iff]
  exact List.forall₂_same.mpr h

theorem newEntry_fields {r : EnqueueRequest} {newId now : String} {e : TurnInputQueueEntry}
    (h : newEntry r newId now = .ok e) :
    e.queueId = newId ∧ (e.status = .queued ∨ e.status = .steerDeferred ∧ e.intent = .steerCurrent) := by
  rw [newEntry] at h
  cases hs : requireNonEmpty r.sessionId "session_id" with
  | error err => simp [hs, bind, Except.bind] at h
  | ok sessionId =>
    cases ha : requireNonEmpty r.agentId "agent_id" with
    | error err => simp [hs, ha, bind, Except.bind] at h
    | ok agentId =>
      cases ht : requireNonEmpty r.text "text" with
      | error err => simp [hs, ha, ht, bind, Except.bind] at h
      | ok text =>
        cases hi : coerceIntent r.intent with
        | error err => simp [hs, ha, ht, hi, bind, Except.bind] at h
        | ok intent =>
          simp only [hs, ha, ht, hi, bind, Except.bind, pure, Except.pure] at h
          split at h
          · next hsteer =>
            split at h
            · cases hg : requireNonEmpty (PythonText.stripOr r.targetTraceId) "target_trace_id" with
              | error err => simp [hg] at h
              | ok target =>
                simp only [hg] at h
                cases h
                exact ⟨rfl, .inl rfl⟩
            · cases h
              exact ⟨rfl, .inr ⟨rfl, hsteer⟩⟩
          · cases h
            exact ⟨rfl, .inl rfl⟩

theorem mem_of_deduplicated {q : Queue} {key : Option (String × String × String)} {e : TurnInputQueueEntry}
    (h : deduplicated q key = some e) : e ∈ q.entries := by
  rw [deduplicated.eq_def] at h
  split at h
  · cases h
  · split at h
    · cases h
    · rw [findById] at h
      split at h
      · cases h
      · exact List.mem_of_find?_eq_some h

theorem described_enqueue (q : Queue) (r : EnqueueRequest) (newId now : String) :
    Described q (.enqueue r newId now) := by
  rw [Described, perform, Attempt.as, enqueue]
  cases hnew : newEntry r newId now with
  | error e => exact .refused _ e
  | ok entry =>
    obtain ⟨hid, hstatus⟩ := newEntry_fields hnew
    cases hdedup : deduplicated q (idempotencyLookupKey entry.sessionId entry.agentId r.idempotencyKey) with
    | some existing =>
      simp only [hdedup]
      exact .found (mem_of_deduplicated hdedup)
    | none =>
      simp only [hdedup]
      split
      · exact .refused _ _
      · next hroom => exact .accepted hid hstatus (not_le.mp hroom)

theorem findQueued_ok {q : Queue} {sessionId queueId message : String} {statusVersion : Option ℤ} {index : ℕ}
    {entry : TurnInputQueueEntry} (h : findQueued q sessionId queueId statusVersion message = .ok (index, entry)) :
    ∃ front back, q.entries = front ++ entry :: back ∧ front.length = index ∧ entry.status = .queued := by
  rw [findQueued] at h
  cases hf : findForSession q sessionId queueId with
  | error e => simp [hf, bind, Except.bind] at h
  | ok found =>
    cases hv : assertStatusVersion found.2 statusVersion with
    | error e => simp [hf, hv, bind, Except.bind] at h
    | ok _ =>
      simp only [hf, hv, bind, Except.bind, pure, Except.pure, throw, throwThe, MonadExceptOf.throw] at h
      by_cases hstatus : found.2.status = .queued
      · simp only [hstatus, ne_eq, not_true_eq_false, if_false] at h
        cases h
        rw [findForSession] at hf
        cases hs : requireNonEmpty sessionId "session_id" with
        | error e => simp [hs, bind, Except.bind] at hf
        | ok s =>
          cases hq : requireNonEmpty queueId "queue_id" with
          | error e => simp [hs, hq, bind, Except.bind] at hf
          | ok i =>
            simp only [hs, hq, bind, Except.bind, pure, Except.pure, throw, throwThe, MonadExceptOf.throw] at hf
            split at hf
            · next found' hlocate =>
              cases hf
              obtain ⟨front, back, hsplit, hlen, -, -⟩ := locate_eq_some hlocate
              exact ⟨front, back, hsplit, hlen, hstatus⟩
            · cases hf
      · simp [hstatus] at h

theorem described_drop (q : Queue) (sessionId queueId : String) (statusVersion : Option ℤ) (now : String) :
    Described q (.drop sessionId queueId statusVersion now) := by
  rw [Described, perform, Attempt.as, drop]
  cases hfind : findQueued q sessionId queueId statusVersion "Only queued entries can be dropped." with
  | error e => exact .refused _ e
  | ok found =>
    obtain ⟨index, entry⟩ := found
    obtain ⟨front, back, hsplit, hlen, hstatus⟩ := findQueued_ok hfind
    refine .touched (by simp) (by simp) ?_
    simp only [Queue.entries_emit, Queue.entries_withEntries]
    rw [hsplit, set_at _ hlen]
    have hsame : SameInput entry (dropped entry now) := ⟨rfl, rfl, rfl, rfl, rfl, Nat.le_succ _⟩
    refine forall₂_replace (Touch.refl _) ⟨hsame, ?_⟩ front back
    rw [hstatus]
    exact .drop _ _

theorem resolveMoveIndex_ok {entries : List TurnInputQueueEntry} {sessionId : String}
    {beforeQueueId afterQueueId : Option String} {target : ℕ}
    (h : resolveMoveIndex entries sessionId beforeQueueId afterQueueId = .ok target) :
    target ≤ entries.length ∧ TargetPresent entries sessionId beforeQueueId afterQueueId := by
  rw [resolveMoveIndex] at h
  split at h
  · next hnone =>
    cases h
    exact ⟨le_rfl, .inl hnone⟩
  · split at h
    · next index e hlocate =>
      obtain ⟨front, back, rfl, hlen, hp, -⟩ := locate_eq_some hlocate
      rw [decide_eq_true_eq] at hp
      constructor
      · cases h
        rw [List.length_append, List.length_cons, hlen]
        split <;> omega
      · exact .inr ⟨e, by simp, hp.1, hp.2⟩
    · cases h

theorem resolveMoveIndex_error {entries : List TurnInputQueueEntry} {sessionId : String}
    {beforeQueueId afterQueueId : Option String} {error : TurnInputQueueError}
    (h : resolveMoveIndex entries sessionId beforeQueueId afterQueueId = .error error) :
    ¬TargetPresent entries sessionId beforeQueueId afterQueueId := by
  rw [resolveMoveIndex] at h
  split at h
  · cases h
  · next hsome =>
    split at h
    · cases h
    · next hlocate =>
      rintro (hnone | ⟨e, he, hs, hid⟩)
      · exact hsome hnone
      · have := locate_eq_none.mp hlocate e he
        rw [decide_eq_false_iff_not] at this
        exact this ⟨hs, hid⟩

theorem described_move (q : Queue) (sessionId queueId : String) (statusVersion : Option ℤ)
    (beforeQueueId afterQueueId : Option String) :
    Described q (.move sessionId queueId statusVersion beforeQueueId afterQueueId) := by
  rw [Described, perform, Attempt.as, move]
  split
  · exact .refused _ _
  · cases hfind : findQueued q sessionId queueId statusVersion "Only queued entries can be moved." with
    | error e => exact .refused _ e
    | ok found =>
      obtain ⟨index, entry⟩ := found
      obtain ⟨front, back, hsplit, hlen, -⟩ := findQueued_ok hfind
      have hrest : q.entries.eraseIdx index = front ++ back := by rw [hsplit, eraseIdx_at hlen]
      dsimp only
      rw [hrest]
      cases hresolve : resolveMoveIndex (front ++ back) sessionId beforeQueueId afterQueueId with
      | error e => exact .lost e hsplit (resolveMoveIndex_error hresolve)
      | ok target =>
        obtain ⟨hle, htarget⟩ := resolveMoveIndex_ok hresolve
        refine .moved hsplit htarget ?_
        exact (List.perm_insertIdx _ _ hle).trans List.perm_middle.symm

theorem described_reserveNext (q : Queue) (sessionId agentId : String) (expectedQueueId : Option String) :
    Described q (.reserveNext sessionId agentId expectedQueueId) := by
  rw [Described, perform, Attempt.as, reserveNext]
  split
  · exact .refused _ _
  · next hnone =>
    have hfree : ∀ x ∈ q.entries, x.sessionId = sessionId → x.agentId = agentId → x.status ≠ .reserved := by
      intro x hx hs ha hr
      have := List.find?_eq_none.mp hnone x hx
      simp [hs, ha, hr] at this
    cases hlocate : locate (nextInput sessionId agentId) q.entries with
    | none => exact .touched (by simp) (by simp) (List.forall₂_same.mpr fun e _ => Touch.refl _ e)
    | some found =>
      obtain ⟨index, entry⟩ := found
      obtain ⟨front, back, hsplit, hlen, hp, hfront⟩ := locate_eq_some hlocate
      dsimp only
      split
      · exact .refused _ _
      · simp only [Queue.entries_emit, Queue.entries_withEntries]
        rw [hsplit, set_at _ hlen]
        exact .reserved hsplit hp hfront hfree

theorem entries_emitAll (eventType : QueueEventType) (updated : List TurnInputQueueEntry) (q : Queue) :
    (emitAll q eventType updated).entries = q.entries := by
  rw [emitAll]
  induction updated generalizing q with
  | nil => rfl
  | cons e es ih => exact ih (q.emit _)

theorem described_reserveSteering (q : Queue) (sessionId agentId targetTraceId : String) :
    Described q (.reserveSteering sessionId agentId targetTraceId) := by
  rw [Described, perform, Attempt.as, reserveSteering]
  split
  · exact .refused _ _
  · next s a t _ =>
    refine .touched (by simp) (by simp) ?_
    rw [entries_emitAll, Queue.entries_withEntries]
    refine forall₂_map fun e _ => ?_
    split
    · next hsteers =>
      rw [steersTrace, decide_eq_true_eq] at hsteers
      obtain ⟨-, -, -, hintent, hstatus⟩ := hsteers
      refine ⟨sameInput_reserved e, ?_⟩
      rw [hintent, hstatus]
      exact .reserveSteering _
    · exact Touch.refl _ e

theorem effect_transitionSteeringBatch (q : Queue) (call : Call) (queueIds : List String) (targetTraceId : String)
    (allowed : List TurnInputQueueStatus) (eventType : QueueEventType)
    (transition : TurnInputQueueEntry → TurnInputQueueEntry)
    (hcall : ∀ request newId now, call ≠ .enqueue request newId now)
    (hstart : ∀ queueId traceId now, call ≠ .markRunning queueId traceId now)
    (h : ∀ e, e.intent = .steerCurrent → e.status ∈ allowed → Touch call e (transition e)) :
    Effect q call
      ((transitionSteeringBatch q queueIds targetTraceId allowed eventType transition).as .entries).1
      ((transitionSteeringBatch q queueIds targetTraceId allowed eventType transition).as .entries).2.entries := by
  have hsame : ∀ reply, Effect q call (.ok reply) q.entries := fun _ =>
    .touched hcall hstart (List.forall₂_same.mpr fun e _ => Touch.refl call e)
  rw [Attempt.as, transitionSteeringBatch]
  dsimp only
  split
  · exact hsame _
  · split
    · exact .refused _ _
    · split
      · exact .refused _ _
      · split
        · exact .refused _ _
        · next hnone =>
          refine .touched hcall hstart ?_
          rw [entries_emitAll, Queue.entries_withEntries]
          refine forall₂_map fun e he => ?_
          split
          · next hreq =>
            have hok := List.find?_eq_none.mp hnone e (List.mem_filter.mpr ⟨he, by simpa using hreq⟩)
            simp only [decide_eq_true_eq, not_or, not_not] at hok
            exact h e hok.1 hok.2.2
          · exact Touch.refl call e

theorem described_completeSteering (q : Queue) (queueIds : List String) (targetTraceId now : String) :
    Described q (.completeSteering queueIds targetTraceId now) := by
  refine effect_transitionSteeringBatch q _ queueIds targetTraceId _ _ _ (by simp) (by simp) ?_
  intro e hintent hstatus
  rw [List.mem_singleton] at hstatus
  refine ⟨⟨rfl, rfl, rfl, rfl, rfl, Nat.le_succ _⟩, ?_⟩
  rw [hintent, hstatus]
  exact .complete _

theorem described_compensateSteering (q : Queue) (queueIds : List String) (targetTraceId : String) :
    Described q (.compensateSteering queueIds targetTraceId) := by
  refine effect_transitionSteeringBatch q _ queueIds targetTraceId _ _ _ (by simp) (by simp) ?_
  intro e hintent hstatus
  refine ⟨⟨rfl, rfl, rfl, rfl, rfl, Nat.le_succ _⟩, ?_⟩
  simp only [List.mem_cons, List.not_mem_nil, or_false] at hstatus
  obtain hstatus | hstatus := hstatus
  · exact .requeue _ _ (.inl hstatus)
  · rw [hintent, hstatus]
    exact .reopen _ _

/-- The entry that `replaceById` found and its update, or an error and the same entries. -/
theorem replaceById_cases (q : Queue) (queueId : String)
    (updater : TurnInputQueueEntry → Except TurnInputQueueError TurnInputQueueEntry) :
    (∃ error, (replaceById q queueId updater).1 = .error error ∧ (replaceById q queueId updater).2 = q) ∨
    ∃ front e back updated, q.entries = front ++ e :: back ∧ updater e = .ok updated ∧
      (replaceById q queueId updater).1 = .ok updated ∧
      (replaceById q queueId updater).2.entries = front ++ updated :: back := by
  rw [replaceById]
  cases hlocate : locate (fun e => decide (e.queueId = queueId)) q.entries with
  | none => exact .inl ⟨_, rfl, rfl⟩
  | some found =>
    obtain ⟨index, e⟩ := found
    obtain ⟨front, back, hsplit, hlen, -, -⟩ := locate_eq_some hlocate
    cases hup : updater e with
    | error error =>
      refine .inl ⟨error, ?_, ?_⟩
      · simp only [hup]
      · simp only [hup]
    | ok updated =>
      refine .inr ⟨front, e, back, updated, hsplit, hup, ?_, ?_⟩
      · simp only [hup]
        split <;> rfl
      · have hset : q.entries.set index updated = front ++ updated :: back := by rw [hsplit, set_at _ hlen]
        simp only [hup, hset]
        split <;> rfl

theorem emitOk_fst (eventType : QueueEventType) (a : Attempt TurnInputQueueEntry) : (emitOk eventType a).1 = a.1 := by
  obtain ⟨_ | _, _⟩ := a <;> rfl

theorem entries_emitOk (eventType : QueueEventType) (a : Attempt TurnInputQueueEntry) :
    (emitOk eventType a).2.entries = a.2.entries := by
  obtain ⟨_ | _, _⟩ := a <;> rfl

theorem described_markRunning (q : Queue) (queueId traceId now : String) :
    Described q (.markRunning queueId traceId now) := by
  rw [Described, perform, Attempt.as, markRunning]
  split
  · exact .refused _ _
  · next trace _ =>
    rw [emitOk_fst, entries_emitOk]
    obtain ⟨error, hres, hq⟩ | ⟨front, e, back, updated, hsplit, hup, hres, hentries⟩ :=
      replaceById_cases q queueId (markRunningEntry trace now)
    · rw [hres, hq]
      exact .refused _ _
    · rw [hres, hentries]
      rw [markRunningEntry] at hup
      split at hup
      · cases hup
      · next hstatus =>
        cases hup
        exact .started hsplit (not_not.mp hstatus)

theorem effect_replaceById {q : Queue} {call : Call} {queueId : String}
    {updater : TurnInputQueueEntry → Except TurnInputQueueError TurnInputQueueEntry}
    (hcall : ∀ request newId now, call ≠ .enqueue request newId now)
    (hstart : ∀ queueId traceId now, call ≠ .markRunning queueId traceId now)
    (h : ∀ e updated, updater e = .ok updated → Touch call e updated) :
    Effect q call ((replaceById q queueId updater).1.map .entry) (replaceById q queueId updater).2.entries := by
  obtain ⟨error, hres, hq⟩ | ⟨front, e, back, updated, hsplit, hup, hres, hentries⟩ :=
    replaceById_cases q queueId updater
  · rw [hres, hq]
    exact .refused _ _
  · rw [hres, hentries]
    refine .touched hcall hstart ?_
    rw [hsplit]
    exact forall₂_replace (Touch.refl call) (h e updated hup) front back

theorem described_requeue (q : Queue) (queueId : String) : Described q (.requeue queueId) := by
  rw [Described, perform, Attempt.as, requeue, emitOk_fst, entries_emitOk]
  refine effect_replaceById (by simp) (by simp) ?_
  intro e updated hup
  rw [requeueEntry] at hup
  split at hup
  · cases hup
  · next hstatus =>
    cases hup
    rw [← not_or, not_not] at hstatus
    exact ⟨⟨rfl, rfl, rfl, rfl, rfl, Nat.le_succ _⟩, .requeue _ _ hstatus⟩

theorem touch_markTerminalEntry {call : Call} {terminal : TurnInputQueueStatus} {now : String}
    (hterminal : (terminalEvent terminal).isSome) {e updated : TurnInputQueueEntry}
    (h : markTerminalEntry terminal now e = .ok updated) : Touch call e updated := by
  rw [markTerminalEntry] at h
  split at h
  · cases h
  · next hstatus =>
    cases h
    refine ⟨⟨rfl, rfl, rfl, rfl, rfl, Nat.le_succ _⟩, ?_⟩
    rw [not_not.mp hstatus]
    exact .finish _ _ hterminal

theorem terminalStatus_ok {status : String} {terminal : TurnInputQueueStatus} {eventType : QueueEventType}
    (h : terminalStatus status = .ok (terminal, eventType)) : (terminalEvent terminal).isSome := by
  rw [terminalStatus] at h
  split at h
  · cases h
  · split at h
    · cases h
    · next hevent =>
      cases h
      rw [hevent]
      rfl

theorem described_markTerminal (q : Queue) (queueId status now : String) :
    Described q (.markTerminal queueId status now) := by
  rw [Described, perform, Attempt.as, markTerminal]
  split
  · exact .refused _ _
  · next terminal eventType hterminal =>
    exact effect_replaceById (by simp) (by simp) fun e updated => touch_markTerminalEntry (terminalStatus_ok hterminal)

theorem described_markTerminalByTrace (q : Queue) (traceId status now : String) :
    Described q (.markTerminalByTrace traceId status now) := by
  have hsame : ∀ reply, Effect q (.markTerminalByTrace traceId status now) (.ok reply) q.entries := fun _ =>
    .touched (by simp) (by simp) (List.forall₂_same.mpr fun e _ => Touch.refl _ e)
  rw [Described, perform, Attempt.as, markTerminalByTrace]
  split
  · exact hsame _
  · split
    · exact .refused _ _
    · next terminal eventType hterminal =>
      split
      · exact hsame _
      · next index e hlocate =>
        obtain ⟨front, back, hsplit, hlen, -, -⟩ := locate_eq_some hlocate
        split
        · exact .refused _ _
        · next updated hup =>
          refine .touched (by simp) (by simp) ?_
          simp only [Queue.entries_emit, Queue.entries_withEntries]
          rw [hsplit, set_at _ hlen]
          exact forall₂_replace (Touch.refl _) (touch_markTerminalEntry (terminalStatus_ok hterminal) hup) front back

theorem described (q : Queue) : ∀ call, Described q call
  | .enqueue r newId now => described_enqueue q r newId now
  | .drop sessionId queueId statusVersion now => described_drop q sessionId queueId statusVersion now
  | .move sessionId queueId statusVersion beforeQueueId afterQueueId =>
    described_move q sessionId queueId statusVersion beforeQueueId afterQueueId
  | .reserveNext sessionId agentId expectedQueueId => described_reserveNext q sessionId agentId expectedQueueId
  | .reserveSteering sessionId agentId targetTraceId => described_reserveSteering q sessionId agentId targetTraceId
  | .completeSteering queueIds targetTraceId now => described_completeSteering q queueIds targetTraceId now
  | .compensateSteering queueIds targetTraceId => described_compensateSteering q queueIds targetTraceId
  | .markRunning queueId traceId now => described_markRunning q queueId traceId now
  | .requeue queueId => described_requeue q queueId
  | .markTerminal queueId status now => described_markTerminal q queueId status now
  | .markTerminalByTrace traceId status now => described_markTerminalByTrace q traceId status now

end OpenMinion.TurnInputQueue
