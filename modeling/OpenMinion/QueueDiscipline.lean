import OpenMinion.QueuedInputs

/-!
# The discipline of the turn-input queue

At most one input of a session and an agent is reserved, the earliest queued one is reserved next, and without moves
they run in the order of acceptance. Capacity is checked at acceptance.
-/
namespace OpenMinion.TurnInputQueue
open TransitionRuns

/-- The inputs that `reserve_next` serves for a session and an agent. -/
def isInput (sessionId agentId : String) (e : TurnInputQueueEntry) : Bool :=
  e.sessionId = sessionId ∧ e.agentId = agentId ∧ e.intent = .queueNext

def inputIds (sessionId agentId : String) (entries : List TurnInputQueueEntry) : List String :=
  (entries.filter (isInput sessionId agentId)).map (·.queueId)

theorem isInput_of_same {sessionId agentId : String} {e e' : TurnInputQueueEntry} (h : SameInput e e') :
    isInput sessionId agentId e' = isInput sessionId agentId e := by
  rw [isInput, isInput, h.sessionId, h.agentId, h.intent]

theorem nextInput_iff {sessionId agentId : String} {e : TurnInputQueueEntry} :
    nextInput sessionId agentId e = true ↔ isInput sessionId agentId e = true ∧ e.status = .queued := by
  simp only [nextInput, isInput, decide_eq_true_eq]
  tauto

def reservedInputs (sessionId agentId : String) (entries : List TurnInputQueueEntry) : ℕ :=
  entries.countP fun e => isInput sessionId agentId e ∧ e.status = .reserved

theorem countP_le_of_forall₂ {R : TurnInputQueueEntry → TurnInputQueueEntry → Prop} {p p' : TurnInputQueueEntry → Bool}
    {entries entries' : List TurnInputQueueEntry} (h : List.Forall₂ R entries entries')
    (hp : ∀ e ∈ entries, ∀ e' ∈ entries', R e e' → p' e' = true → p e = true) : entries'.countP p' ≤ entries.countP p := by
  induction h with
  | nil => exact le_rfl
  | @cons e e' es es' head tail ih =>
    have htail := ih fun x hx x' hx' => hp x (List.mem_cons_of_mem e hx) x' (List.mem_cons_of_mem e' hx')
    have hhead := hp e List.mem_cons_self e' List.mem_cons_self head
    rw [List.countP_cons, List.countP_cons]
    by_cases h' : p' e' = true
    · rw [if_pos h', if_pos (hhead h')]
      omega
    · rw [if_neg h']
      omega

/-- An edge of an input in place neither reserves nor starts it, nor takes it out of `dropped`. -/
theorem edge_of_input {call : Call} {status status' : TurnInputQueueStatus} (h : Edge call .queueNext status status') :
    (status' = .reserved → status = .reserved) ∧ (status = .dropped → status' = .dropped) ∧
      (status' = .steerDeferred → status = .steerDeferred) ∧
      (status' = .running ∨ (terminalEvent status').isSome → status = .running ∨ (terminalEvent status).isSome) := by
  cases h with
  | stay => exact ⟨id, id, id, id⟩
  | drop => simp [terminalEvent]
  | requeue _ _ h => obtain rfl | rfl := h <;> simp [terminalEvent]
  | finish _ _ h =>
    refine ⟨?_, by simp, ?_, by simp⟩
    · rintro rfl
      cases h
    · rintro rfl
      cases h

theorem intent_of_isInput {sessionId agentId : String} {e : TurnInputQueueEntry} (h : isInput sessionId agentId e = true) :
    e.intent = .queueNext := by
  rw [isInput, decide_eq_true_eq] at h
  exact h.2.2

theorem reservedInputs_touched {sessionId agentId : String} {call : Call} {entries entries' : List TurnInputQueueEntry}
    (h : List.Forall₂ (Touch call) entries entries') :
    reservedInputs sessionId agentId entries' ≤ reservedInputs sessionId agentId entries := by
  refine countP_le_of_forall₂ h fun e _ e' _ htouch hp => ?_
  rw [decide_eq_true_eq] at hp ⊢
  have hinput : isInput sessionId agentId e = true := (isInput_of_same htouch.same).symm.trans hp.1
  have hedge := htouch.edge
  rw [intent_of_isInput hinput] at hedge
  exact ⟨hinput, (edge_of_input hedge).1 hp.2⟩

theorem reservedInputs_append (sessionId agentId : String) (entries others : List TurnInputQueueEntry) :
    reservedInputs sessionId agentId (entries ++ others) =
      reservedInputs sessionId agentId entries + reservedInputs sessionId agentId others := List.countP_append

theorem reservedInputs_cons (sessionId agentId : String) (e : TurnInputQueueEntry) (entries : List TurnInputQueueEntry) :
    reservedInputs sessionId agentId (e :: entries) = reservedInputs sessionId agentId entries +
      if isInput sessionId agentId e ∧ e.status = .reserved then 1 else 0 := by
  simp [reservedInputs, List.countP_cons]

theorem reservedInputs_effect {q : Queue} {call : Call} {result : Except TurnInputQueueError Reply}
    {entries : List TurnInputQueueEntry} {sessionId agentId : String} (h : Effect q call result entries)
    (hone : reservedInputs sessionId agentId q.entries ≤ 1) : reservedInputs sessionId agentId entries ≤ 1 := by
  cases h with
  | refused => exact hone
  | found => exact hone
  | @accepted _ _ _ e hid hstatus hroom =>
    have hnot : ¬(isInput sessionId agentId e = true ∧ e.status = .reserved) := by
      rintro ⟨-, hr⟩
      obtain hq | ⟨hd, -⟩ := hstatus
      · rw [hq] at hr
        cases hr
      · rw [hd] at hr
        cases hr
    rw [reservedInputs_append, reservedInputs_cons, if_neg hnot]
    exact hone
  | touched hcall hstart h => exact (reservedInputs_touched h).trans hone
  | @reserved session agent _ front back e hsplit hnext hfirst hfree =>
    by_cases hkey : sessionId = session ∧ agentId = agent
    · obtain ⟨rfl, rfl⟩ := hkey
      have hnone : reservedInputs sessionId agentId q.entries = 0 := by
        rw [reservedInputs, List.countP_eq_zero]
        intro x hx hr
        rw [decide_eq_true_eq, isInput, decide_eq_true_eq] at hr
        exact hfree x hx hr.1.1 hr.1.2.1 hr.2
      rw [hsplit, reservedInputs_append, reservedInputs_cons] at hnone
      rw [reservedInputs_append, reservedInputs_cons]
      split <;> omega
    · have hother : isInput sessionId agentId (TurnInputQueue.reserved e) = false := by
        rw [isInput_of_same (sameInput_reserved e)]
        simp only [nextInput, decide_eq_true_eq] at hnext
        simp only [isInput, decide_eq_false_iff_not, hnext.1, hnext.2.1]
        intro hin
        exact hkey ⟨hin.1.symm, hin.2.1.symm⟩
      rw [hsplit, reservedInputs_append, reservedInputs_cons] at hone
      rw [reservedInputs_append, reservedInputs_cons, hother]
      simp only [Bool.false_eq_true, false_and, if_false]
      omega
  | started hsplit hstatus =>
    rw [hsplit, reservedInputs_append, reservedInputs_cons] at hone
    rw [reservedInputs_append, reservedInputs_cons, if_neg (fun hr => by cases hr.2)]
    omega
  | @moved _ _ _ _ _ front back _ e hsplit htarget hperm =>
    have hsame : reservedInputs sessionId agentId entries = reservedInputs sessionId agentId q.entries := by
      rw [reservedInputs, hperm.countP_eq, hsplit]
      simp only [List.countP_append, List.countP_cons, reservedInputs]
      rfl
    omega
  | lost error hsplit htarget =>
    rw [hsplit, reservedInputs_append, reservedInputs_cons] at hone
    rw [reservedInputs_append]
    omega

/-- The inputs of a session and an agent in a history without moves. -/
structure InOrder (sessionId agentId : String) (h : History) : Prop where
  inputs : h.queue.entries.map input = h.accepted.map input
  known : ∀ id ∈ h.started.map (·.queueId), id ∈ h.accepted.map (·.queueId)
  /-- What runs or has ended is known to have run; no input is deferred. -/
  ran : ∀ e ∈ h.queue.entries, isInput sessionId agentId e = true →
    (e.status = .running ∨ (terminalEvent e.status).isSome → e.queueId ∈ h.started.map (·.queueId)) ∧
      e.status ≠ .steerDeferred
  /-- An input is reserved or has run only after all earlier ones have run or were dropped. -/
  served : h.queue.entries.Pairwise fun x y => isInput sessionId agentId x = true → isInput sessionId agentId y = true →
    y.status = .reserved ∨ y.queueId ∈ h.started.map (·.queueId) →
      x.queueId ∈ h.started.map (·.queueId) ∨ x.status = .dropped
  started : inputIds sessionId agentId h.started =
    (inputIds sessionId agentId h.queue.entries).filter (· ∈ h.started.map (·.queueId))

theorem pairwise_of_forall₂ {R P P' : TurnInputQueueEntry → TurnInputQueueEntry → Prop}
    {entries entries' : List TurnInputQueueEntry} (h : List.Forall₂ R entries entries')
    (hP : ∀ x x' y y', R x x' → R y y' → P x y → P' x' y') (hp : entries.Pairwise P) : entries'.Pairwise P' := by
  induction h with
  | nil => exact .nil
  | @cons x x' es es' head tail ih =>
    obtain ⟨hx, hes⟩ := List.pairwise_cons.mp hp
    refine List.pairwise_cons.mpr ⟨fun y' hy' => ?_, ih hes⟩
    obtain ⟨i, hi, rfl⟩ := List.getElem_of_mem hy'
    have hi' : i < es.length := tail.length_eq ▸ hi
    exact hP _ _ _ _ head (tail.get hi' hi) (hx _ (List.getElem_mem hi'))

theorem inputIds_of_map_input {entries others : List TurnInputQueueEntry} (sessionId agentId : String)
    (h : entries.map input = others.map input) : inputIds sessionId agentId entries = inputIds sessionId agentId others := by
  have hkey : ∀ l : List TurnInputQueueEntry, inputIds sessionId agentId l =
      ((l.map input).filter fun i => i.2.1 = sessionId ∧ i.2.2.1 = agentId ∧ i.2.2.2.2 = .queueNext).map Prod.fst := by
    intro l
    rw [List.filter_map, List.map_map]
    rfl
  rw [hkey, hkey, h]

theorem inputIds_append (sessionId agentId : String) (entries others : List TurnInputQueueEntry) :
    inputIds sessionId agentId (entries ++ others) = inputIds sessionId agentId entries ++ inputIds sessionId agentId others := by
  rw [inputIds, List.filter_append, List.map_append]
  rfl

section Order

variable {sessionId agentId : String} {h : History} {call : Call} {calls : List Call}

theorem InOrder.touched (ho : InOrder sessionId agentId h) {h' : History} (htouch : List.Forall₂ (Touch call) h.queue.entries h'.queue.entries)
    (haccepted : h'.accepted = h.accepted) (hstarted : h'.started = h.started) : InOrder sessionId agentId h' := by
  have hmap := map_input_of_touch htouch
  have hedge : ∀ {e e' : TurnInputQueueEntry}, Touch call e e' → isInput sessionId agentId e' = true →
      isInput sessionId agentId e = true ∧ Edge call .queueNext e.status e'.status := by
    intro e e' ht hin
    have hin' := (isInput_of_same ht.same).symm.trans hin
    have hed := ht.edge
    rw [intent_of_isInput hin'] at hed
    exact ⟨hin', hed⟩
  constructor
  · rw [hmap, haccepted]
    exact ho.inputs
  · rw [hstarted, haccepted]
    exact ho.known
  · intro e' he' hin
    obtain ⟨i, hi, rfl⟩ := List.getElem_of_mem he'
    have hi' : i < h.queue.entries.length := htouch.length_eq ▸ hi
    have ht := htouch.get hi' hi
    obtain ⟨hin', hed⟩ := hedge ht hin
    obtain ⟨hran, hdef⟩ := ho.ran _ (List.getElem_mem hi') hin'
    obtain ⟨-, -, hsteer, hend⟩ := edge_of_input hed
    rw [hstarted]
    refine ⟨fun hr => ?_, fun hs => hdef (hsteer hs)⟩
    have hid : (h'.queue.entries[i]).queueId = (h.queue.entries[i]).queueId := ht.same.queueId
    rw [hid]
    exact hran (hend hr)
  · refine pairwise_of_forall₂ htouch ?_ ho.served
    intro x x' y y' hx hy hp hinx hiny hserved
    obtain ⟨hinx', hedx⟩ := hedge hx hinx
    obtain ⟨hiny', hedy⟩ := hedge hy hiny
    rw [hstarted, hy.same.queueId] at hserved
    rw [hstarted, hx.same.queueId]
    exact (hp hinx' hiny' (hserved.imp_left (edge_of_input hedy).1)).imp_right (edge_of_input hedx).2.1
  · rw [hstarted, inputIds_of_map_input sessionId agentId hmap]
    exact ho.started

theorem InOrder.accepted (ho : InOrder sessionId agentId h) {h' : History} {e : TurnInputQueueEntry}
    (hentries : h'.queue.entries = h.queue.entries ++ [e]) (haccepted : h'.accepted = h.accepted ++ [e])
    (hstarted : h'.started = h.started) (hfresh : e.queueId ∉ h.accepted.map (·.queueId))
    (hstatus : e.status = .queued ∨ e.status = .steerDeferred ∧ e.intent = .steerCurrent) : InOrder sessionId agentId h' := by
  have hnot : e.queueId ∉ h.started.map (·.queueId) := fun hs => hfresh (ho.known _ hs)
  have hqueued : isInput sessionId agentId e = true → e.status = .queued := by
    intro hin
    obtain hq | ⟨-, hi⟩ := hstatus
    · exact hq
    · rw [intent_of_isInput hin] at hi
      cases hi
  constructor
  · rw [hentries, haccepted, List.map_append, List.map_append, ho.inputs]
  · intro id hid
    rw [hstarted] at hid
    rw [haccepted, List.map_append]
    exact List.mem_append_left _ (ho.known id hid)
  · intro x hx hin
    rw [hstarted]
    rw [hentries, List.mem_append, List.mem_singleton] at hx
    obtain hx | rfl := hx
    · exact ho.ran x hx hin
    · rw [hqueued hin]
      simp [terminalEvent]
  · rw [hentries, hstarted, List.pairwise_append]
    refine ⟨ho.served, List.pairwise_singleton _ _, ?_⟩
    intro x _ y hy _ hin hserved
    obtain rfl := List.mem_singleton.mp hy
    rw [hqueued hin] at hserved
    obtain hr | hs := hserved
    · cases hr
    · exact absurd hs hnot
  · rw [hentries, hstarted, inputIds_append, List.filter_append, ← ho.started]
    have hnone : (inputIds sessionId agentId [e]).filter (· ∈ h.started.map (·.queueId)) = [] := by
      rw [List.filter_eq_nil_iff]
      intro id hid
      rw [inputIds, List.mem_map] at hid
      obtain ⟨x, hx, rfl⟩ := hid
      obtain rfl := List.mem_singleton.mp (List.mem_of_mem_filter hx)
      simpa using hnot
    rw [hnone, List.append_nil]

theorem pairwise_replace {P P' : TurnInputQueueEntry → TurnInputQueueEntry → Prop} {front back : List TurnInputQueueEntry}
    {e e' : TurnInputQueueEntry} (hp : (front ++ e :: back).Pairwise P)
    (hrest : ∀ x ∈ front ++ back, ∀ y ∈ front ++ back, P x y → P' x y) (hfront : ∀ x ∈ front, P x e → P' x e')
    (hback : ∀ y ∈ back, P e y → P' e' y) : (front ++ e' :: back).Pairwise P' := by
  rw [List.pairwise_append, List.pairwise_cons] at hp ⊢
  obtain ⟨hf, ⟨he, hb⟩, hfb⟩ := hp
  refine ⟨?_, ⟨?_, ?_⟩, ?_⟩
  · exact hf.imp_of_mem fun hx hy => hrest _ (List.mem_append_left _ hx) _ (List.mem_append_left _ hy)
  · exact fun y hy => hback y hy (he y hy)
  · exact hb.imp_of_mem fun hx hy => hrest _ (List.mem_append_right _ hx) _ (List.mem_append_right _ hy)
  · intro x hx y hy
    obtain rfl | hy := List.mem_cons.mp hy
    · exact hfront x hx (hfb x hx _ List.mem_cons_self)
    · exact hrest x (List.mem_append_left _ hx) y (List.mem_append_right _ hy) (hfb x hx y (List.mem_cons_of_mem _ hy))

theorem map_input_replace {front back : List TurnInputQueueEntry} {e e' : TurnInputQueueEntry} (h : SameInput e e') :
    (front ++ e' :: back).map input = (front ++ e :: back).map input := by
  simp [input_eq_of_same h]

theorem InOrder.reserved (ho : InOrder sessionId agentId h) {h' : History} {session agent : String}
    {front back : List TurnInputQueueEntry} {e : TurnInputQueueEntry} (hsplit : h.queue.entries = front ++ e :: back)
    (hentries : h'.queue.entries = front ++ reserved e :: back) (haccepted : h'.accepted = h.accepted)
    (hstarted : h'.started = h.started) (hnext : nextInput session agent e = true)
    (hfirst : ∀ x ∈ front, nextInput session agent x = false)
    (hfree : ∀ x ∈ h.queue.entries, x.sessionId = session → x.agentId = agent → x.status ≠ .reserved) :
    InOrder sessionId agentId h' := by
  have hmap : h'.queue.entries.map input = h.queue.entries.map input := by
    rw [hentries, hsplit, map_input_replace (sameInput_reserved e)]
  have hmem : ∀ x ∈ front ++ back, x ∈ h.queue.entries := by
    intro x hx
    rw [hsplit, List.mem_append, List.mem_cons]
    exact (List.mem_append.mp hx).imp_right Or.inr
  obtain ⟨hin, hqueued⟩ := nextInput_iff.mp hnext
  constructor
  · rw [hmap, haccepted]
    exact ho.inputs
  · rw [hstarted, haccepted]
    exact ho.known
  · intro x hx hinx
    rw [hstarted]
    rw [hentries, List.mem_append, List.mem_cons] at hx
    obtain hx | rfl | hx := hx
    · exact ho.ran x (hmem x (List.mem_append_left _ hx)) hinx
    · simp [TurnInputQueue.reserved, terminalEvent]
    · exact ho.ran x (hmem x (List.mem_append_right _ hx)) hinx
  · rw [hentries, hstarted]
    have hserved := ho.served
    rw [hsplit] at hserved
    refine pairwise_replace hserved (fun x _ y _ hp => hp) ?_ ?_
    · intro x hx _ hinx hine _
      -- An earlier input is not queued, since the scan passed over it, and not reserved.
      have hx' := hmem x (List.mem_append_left _ hx)
      have hkey : isInput session agent x = true := by
        rw [isInput_of_same (sameInput_reserved e)] at hine
        simp only [isInput, decide_eq_true_eq] at hinx hine hin ⊢
        exact ⟨hinx.1.trans (hine.1.symm.trans hin.1), hinx.2.1.trans (hine.2.1.symm.trans hin.2.1), hinx.2.2⟩
      have hnq : x.status ≠ .queued := by
        intro hq
        have := nextInput_iff.mpr ⟨hkey, hq⟩
        rw [hfirst x hx] at this
        cases this
      have hnr : x.status ≠ .reserved := by
        rw [isInput, decide_eq_true_eq] at hkey
        exact hfree x hx' hkey.1 hkey.2.1
      obtain ⟨hran, hdef⟩ := ho.ran x hx' hinx
      cases hs : x.status with
      | queued => exact absurd hs hnq
      | reserved => exact absurd hs hnr
      | dropped => exact .inr rfl
      | steerDeferred => exact absurd hs hdef
      | running => exact .inl (hran (.inl hs))
      | completed | cancelled | failed => exact .inl (hran (.inr (by rw [hs]; rfl)))
    · intro y _ hp hine hiny hserved
      rw [isInput_of_same (sameInput_reserved e)] at hine
      obtain hs | hd := hp hine hiny hserved
      · exact .inl hs
      · rw [hqueued] at hd
        cases hd
  · rw [hstarted, inputIds_of_map_input sessionId agentId hmap]
    exact ho.started

theorem InOrder.restarted (ho : InOrder sessionId agentId h) {h' : History} {traceId now : String}
    {front back : List TurnInputQueueEntry} {e : TurnInputQueueEntry} (hsplit : h.queue.entries = front ++ e :: back)
    (hentries : h'.queue.entries = front ++ running traceId now e :: back) (haccepted : h'.accepted = h.accepted)
    (hstarted : h'.started = h.started) (hran : e.queueId ∈ h.started.map (·.queueId)) : InOrder sessionId agentId h' := by
  have hmap : h'.queue.entries.map input = h.queue.entries.map input := by
    rw [hentries, hsplit, map_input_replace (sameInput_running traceId now e)]
  have hmem : ∀ x ∈ front ++ back, x ∈ h.queue.entries := by
    intro x hx
    rw [hsplit, List.mem_append, List.mem_cons]
    exact (List.mem_append.mp hx).imp_right Or.inr
  constructor
  · rw [hmap, haccepted]
    exact ho.inputs
  · rw [hstarted, haccepted]
    exact ho.known
  · intro x hx hinx
    rw [hstarted]
    rw [hentries, List.mem_append, List.mem_cons] at hx
    obtain hx | rfl | hx := hx
    · exact ho.ran x (hmem x (List.mem_append_left _ hx)) hinx
    · exact ⟨fun _ => hran, by simp [running]⟩
    · exact ho.ran x (hmem x (List.mem_append_right _ hx)) hinx
  · rw [hentries, hstarted]
    have hserved := ho.served
    rw [hsplit] at hserved
    refine pairwise_replace hserved (fun x _ y _ hp => hp) ?_ ?_
    · intro x _ hp hinx hine _
      rw [isInput_of_same (sameInput_running traceId now e)] at hine
      exact hp hinx hine (.inr hran)
    · exact fun y _ _ _ _ _ => .inl hran
  · rw [hstarted, inputIds_of_map_input sessionId agentId hmap]
    exact ho.started

theorem InOrder.firstStarted (ho : InOrder sessionId agentId h) {h' : History} {traceId now : String}
    {front back : List TurnInputQueueEntry} {e : TurnInputQueueEntry} (hsplit : h.queue.entries = front ++ e :: back)
    (hentries : h'.queue.entries = front ++ running traceId now e :: back) (haccepted : h'.accepted = h.accepted)
    (hstarted : h'.started = h.started ++ [running traceId now e]) (hstatus : e.status = .reserved)
    (hfirst : e.queueId ∉ h.started.map (·.queueId)) (hids : (h.queue.entries.map (·.queueId)).Nodup) :
    InOrder sessionId agentId h' := by
  have hmap : h'.queue.entries.map input = h.queue.entries.map input := by
    rw [hentries, hsplit, map_input_replace (sameInput_running traceId now e)]
  have hmem : ∀ x ∈ front ++ back, x ∈ h.queue.entries := by
    intro x hx
    rw [hsplit, List.mem_append, List.mem_cons]
    exact (List.mem_append.mp hx).imp_right Or.inr
  have hstartedIds : h'.started.map (·.queueId) = h.started.map (·.queueId) ++ [e.queueId] := by
    rw [hstarted, List.map_append]
    rfl
  have hne : ∀ x ∈ front ++ back, x.queueId ≠ e.queueId := by
    intro x hx heq
    have hnd := hids
    rw [hsplit, List.map_append, List.map_cons, List.nodup_middle, ← List.map_append, List.nodup_cons] at hnd
    rw [← heq] at hnd
    exact hnd.1 (List.mem_map_of_mem hx)
  have hserved := ho.served
  rw [hsplit] at hserved
  constructor
  · rw [hmap, haccepted]
    exact ho.inputs
  · intro id hid
    rw [hstartedIds, List.mem_append, List.mem_singleton] at hid
    rw [haccepted]
    obtain hid | rfl := hid
    · exact ho.known id hid
    · rw [← (queueId_of_input (List.Perm.of_eq ho.inputs)).mem_iff, hsplit]
      simp
  · intro x hx hinx
    rw [hstartedIds]
    rw [hentries, List.mem_append, List.mem_cons] at hx
    obtain hx | rfl | hx := hx
    · have hran := ho.ran x (hmem x (List.mem_append_left _ hx)) hinx
      exact ⟨fun hr => List.mem_append_left _ (hran.1 hr), hran.2⟩
    · exact ⟨fun _ => by simp [running], by simp [running]⟩
    · have hran := ho.ran x (hmem x (List.mem_append_right _ hx)) hinx
      exact ⟨fun hr => List.mem_append_left _ (hran.1 hr), hran.2⟩
  · rw [hentries, hstartedIds]
    refine pairwise_replace hserved ?_ ?_ ?_
    · intro x _ y hy hp hinx hiny hr
      have hy' : y.status = .reserved ∨ y.queueId ∈ h.started.map (·.queueId) := by
        refine hr.imp_right fun hin => ?_
        obtain hin | heq := List.mem_append.mp hin
        · exact hin
        · exact absurd (List.mem_singleton.mp heq) (hne y hy)
      exact (hp hinx hiny hy').imp_left (List.mem_append_left _)
    · intro x _ hp hinx hine _
      rw [isInput_of_same (sameInput_running traceId now e)] at hine
      exact (hp hinx hine (.inl hstatus)).imp_left (List.mem_append_left _)
    · exact fun y _ _ _ _ _ => .inl (by simp [running])
  · -- Before the entry the same inputs have run; after it none has.
    have hold := ho.started
    have hfront : ∀ l : List TurnInputQueueEntry, (∀ x ∈ l, x ∈ front ++ back) →
        (inputIds sessionId agentId l).filter (· ∈ h'.started.map (·.queueId)) =
          (inputIds sessionId agentId l).filter (· ∈ h.started.map (·.queueId)) := by
      intro l hl
      apply List.filter_congr
      intro id hid
      rw [inputIds, List.mem_map] at hid
      obtain ⟨x, hx, rfl⟩ := hid
      have := hne x (hl x (List.mem_of_mem_filter hx))
      rw [hstartedIds]
      simp [this]
    have hsplit' : front ++ running traceId now e :: back = front ++ ([running traceId now e] ++ back) := rfl
    have hsplit'' : front ++ e :: back = front ++ ([e] ++ back) := rfl
    rw [hsplit, hsplit'', inputIds_append, inputIds_append, List.filter_append, List.filter_append] at hold
    rw [hentries, hsplit', inputIds_append, inputIds_append, List.filter_append, List.filter_append,
      hfront front (fun x hx => List.mem_append_left _ hx), hfront back (fun x hx => List.mem_append_right _ hx),
      hstarted, inputIds_append, hold]
    by_cases hin : isInput sessionId agentId e = true
    · have hin' : isInput sessionId agentId (running traceId now e) = true := by
        rw [isInput_of_same (sameInput_running traceId now e)]
        exact hin
      have hback : (inputIds sessionId agentId back).filter (· ∈ h.started.map (·.queueId)) = [] := by
        rw [List.filter_eq_nil_iff]
        intro id hid hran
        rw [inputIds, List.mem_map] at hid
        obtain ⟨y, hy, rfl⟩ := hid
        rw [List.pairwise_append, List.pairwise_cons] at hserved
        obtain ⟨hy, hiny⟩ := List.mem_filter.mp hy
        obtain hs | hd := hserved.2.1.1 y hy hin hiny (.inr (by simpa using hran))
        · exact hfirst hs
        · rw [hstatus] at hd
          cases hd
      have hold' : (inputIds sessionId agentId [e]).filter (· ∈ h.started.map (·.queueId)) = [] := by
        simpa [inputIds, hin] using hfirst
      have hnew : (inputIds sessionId agentId [running traceId now e]).filter
          (· ∈ (h.started ++ [running traceId now e]).map (·.queueId)) =
            inputIds sessionId agentId [running traceId now e] := by
        simp [inputIds, hin']
      rw [hback, hold', hnew]
      simp
    · have hin' : isInput sessionId agentId (running traceId now e) = false := by
        rw [isInput_of_same (sameInput_running traceId now e)]
        simpa using hin
      simp [inputIds, hin, hin']

theorem InOrder.next (ho : InOrder sessionId agentId h) (hr : Ready h (call :: calls))
    (hmove : ∀ sessionId queueId statusVersion beforeQueueId afterQueueId,
      call ≠ .move sessionId queueId statusVersion beforeQueueId afterQueueId) :
    InOrder sessionId agentId (record h call) := by
  have hd : Effect h.queue call _ _ := described h.queue call
  have hentries : (record h call).queue.entries = (perform h.queue call).2.entries := rfl
  have haccepted : (record h call).accepted = h.accepted ++ (newInput h.queue call (perform h.queue call).1).toList := rfl
  have hstarted : (record h call).started = h.started ++ (firstStart h.started call (perform h.queue call).1).toList := rfl
  have hdrawn := hr.drawn
  generalize record h call = h' at hentries haccepted hstarted ⊢
  generalize (perform h.queue call).1 = result at hd haccepted hstarted
  generalize (perform h.queue call).2.entries = entries at hd hentries
  have hsame : List.Forall₂ (Touch call) h.queue.entries h.queue.entries :=
    List.forall₂_same.mpr fun e _ => Touch.refl call e
  cases hd with
  | refused _ error =>
    have hn : newInput h.queue call (.error error) = none := by cases call <;> rfl
    have hs : firstStart h.started call (.error error) = none := by cases call <;> rfl
    rw [hn, Option.toList_none, List.append_nil] at haccepted
    rw [hs, Option.toList_none, List.append_nil] at hstarted
    exact ho.touched (by rw [hentries]; exact hsame) haccepted hstarted
  | found he =>
    simp only [newInput, if_pos he, firstStart, Option.toList_none, List.append_nil] at haccepted hstarted
    exact ho.touched (by rw [hentries]; exact hsame) haccepted hstarted
  | @accepted request newId now e hid hstatus hroom =>
    have hfresh : e.queueId ∉ h.queue.entries.map (·.queueId) := by
      rw [hid]
      exact hdrawn newId (by simp [drawnIds])
    have hnew : e ∉ h.queue.entries := fun he => hfresh (List.mem_map_of_mem he)
    simp only [newInput, if_neg hnew, firstStart, Option.toList_none, Option.toList_some, List.append_nil] at haccepted hstarted
    refine ho.accepted hentries haccepted hstarted ?_ hstatus
    rwa [← (queueId_of_input hr.conserved).mem_iff]
  | @touched _ reply _ hcall hstart htouch =>
    have hn : newInput h.queue call (.ok reply) = none := by
      cases call with
      | enqueue request newId now => exact absurd rfl (hcall request newId now)
      | _ => rfl
    have hs : firstStart h.started call (.ok reply) = none := by
      cases call with
      | markRunning queueId traceId now => exact absurd rfl (hstart queueId traceId now)
      | _ => rfl
    rw [hn, Option.toList_none, List.append_nil] at haccepted
    rw [hs, Option.toList_none, List.append_nil] at hstarted
    exact ho.touched (by rw [hentries]; exact htouch) haccepted hstarted
  | reserved hsplit hnext hfirst hfree =>
    simp only [newInput, firstStart, Option.toList_none, List.append_nil] at haccepted hstarted
    exact ho.reserved hsplit hentries haccepted hstarted hnext hfirst hfree
  | @started queueId trace traceId now front back e hsplit hstatus =>
    simp only [newInput, Option.toList_none, List.append_nil] at haccepted
    rw [firstStart] at hstarted
    by_cases hran : (running traceId now e).queueId ∈ h.started.map (·.queueId)
    · rw [if_pos hran, Option.toList_none, List.append_nil] at hstarted
      exact ho.restarted hsplit hentries haccepted hstarted hran
    · rw [if_neg hran, Option.toList_some] at hstarted
      exact ho.firstStarted hsplit hentries haccepted hstarted hstatus hran hr.ids
  | moved => exact absurd rfl (hmove _ _ _ _ _)
  | lost => exact absurd rfl (hmove _ _ _ _ _)

end Order

def pendingBut (others : List String) (entries : List TurnInputQueueEntry) (sessionId : String) : ℕ :=
  entries.countP fun e => e.sessionId = sessionId ∧ e.status.active ∧ e.queueId ∉ others

theorem pendingBut_le_pending (others : List String) (entries : List TurnInputQueueEntry) (sessionId : String) :
    pendingBut others entries sessionId ≤ pending entries sessionId := by
  apply List.countP_mono_left
  intro e _ he
  simp only [decide_eq_true_eq] at he ⊢
  exact ⟨he.1, he.2.1⟩

theorem active_of_edge {call : Call} {intent : TurnInputIntent} {status status' : TurnInputQueueStatus}
    (h : Edge call intent status status') (hactive : status'.active = true) :
    status.active = true ∨ status = .completed ∧ status' = .queued ∧ ∃ queueIds trace, call = .compensateSteering queueIds trace := by
  cases h with
  | stay => exact .inl hactive
  | drop => exact .inl rfl
  | reserveSteering => exact .inl rfl
  | complete => exact .inl rfl
  | requeue _ _ h => obtain rfl | rfl := h <;> exact .inl rfl
  | reopen queueIds trace => exact .inr ⟨rfl, rfl, queueIds, trace, rfl⟩
  | finish => exact .inl rfl

theorem pendingBut_touched {call : Call} {entries entries' : List TurnInputQueueEntry} {others : List String}
    (h : List.Forall₂ (Touch call) entries entries') (sessionId : String) :
    pendingBut (others ++ putBack entries entries' call) entries' sessionId ≤ pendingBut others entries sessionId := by
  refine countP_le_of_forall₂ h fun e he e' he' htouch hp => ?_
  rw [decide_eq_true_eq] at hp ⊢
  obtain ⟨hs, hactive, hnot⟩ := hp
  rw [List.mem_append, not_or, htouch.same.queueId] at hnot
  refine ⟨htouch.same.sessionId.symm.trans hs, ?_, hnot.1⟩
  obtain ha | ⟨hdone, hq, queueIds, trace, rfl⟩ := active_of_edge htouch.edge hactive
  · exact ha
  · refine absurd ?_ hnot.2
    rw [putBack, List.mem_map]
    exact ⟨e, by simpa [he, hdone] using ⟨e', he', htouch.same.queueId, hq⟩, rfl⟩

/-- The capacity of a queue holds of all active entries but the given ones. -/
def WithinCapacity (others : List String) (maxPending : ℕ) (entries : List TurnInputQueueEntry) : Prop :=
  ∀ sessionId, pendingBut others entries sessionId ≤ maxPending

theorem pendingBut_append (others : List String) (entries more : List TurnInputQueueEntry) (sessionId : String) :
    pendingBut others (entries ++ more) sessionId = pendingBut others entries sessionId + pendingBut others more sessionId :=
  List.countP_append

theorem pendingBut_cons (others : List String) (e : TurnInputQueueEntry) (entries : List TurnInputQueueEntry)
    (sessionId : String) : pendingBut others (e :: entries) sessionId = pendingBut others entries sessionId +
      if e.sessionId = sessionId ∧ e.status.active ∧ e.queueId ∉ others then 1 else 0 := by
  simp [pendingBut, List.countP_cons]

theorem pendingBut_mono {others others' : List String} (h : others ⊆ others') (entries : List TurnInputQueueEntry)
    (sessionId : String) : pendingBut others' entries sessionId ≤ pendingBut others entries sessionId := by
  apply List.countP_mono_left
  intro e _ he
  simp only [decide_eq_true_eq] at he ⊢
  exact ⟨he.1, he.2.1, fun hin => he.2.2 (h hin)⟩

theorem withinCapacity_effect {q : Queue} {call : Call} {result : Except TurnInputQueueError Reply}
    {entries : List TurnInputQueueEntry} {others : List String} (h : Effect q call result entries)
    (hw : WithinCapacity others q.maxPendingPerSession q.entries) :
    WithinCapacity (others ++ putBack q.entries entries call) q.maxPendingPerSession entries := by
  intro sessionId
  have hsub : others ⊆ others ++ putBack q.entries entries call := List.subset_append_left _ _
  refine le_trans ?_ (le_refl q.maxPendingPerSession)
  cases h with
  | refused => exact (pendingBut_mono hsub _ _).trans (hw sessionId)
  | found => exact (pendingBut_mono hsub _ _).trans (hw sessionId)
  | @accepted _ _ _ e hid hstatus hroom =>
    refine (pendingBut_mono hsub _ _).trans ?_
    rw [pendingBut_append, pendingBut_cons]
    have hnil : pendingBut others [] sessionId = 0 := rfl
    rw [hnil]
    split
    · next he =>
      have hle := pendingBut_le_pending others q.entries sessionId
      rw [he.1] at hroom
      omega
    · have := hw sessionId
      omega
  | touched hcall hstart h => exact (pendingBut_touched h sessionId).trans (hw sessionId)
  | @reserved _ _ _ front back e hsplit hnext hfirst hfree =>
    refine (pendingBut_mono hsub _ _).trans ?_
    have hold := hw sessionId
    have hqueued := (nextInput_iff.mp hnext).2
    rw [hsplit, pendingBut_append, pendingBut_cons, hqueued] at hold
    rw [pendingBut_append, pendingBut_cons]
    exact hold
  | @started _ _ _ _ front back e hsplit hstatus =>
    refine (pendingBut_mono hsub _ _).trans ?_
    have hold := hw sessionId
    rw [hsplit, pendingBut_append, pendingBut_cons, hstatus] at hold
    rw [pendingBut_append, pendingBut_cons]
    exact hold
  | @moved _ _ _ _ _ front back _ e hsplit htarget hperm =>
    refine (pendingBut_mono hsub _ _).trans ?_
    have hold := hw sessionId
    rw [hsplit, pendingBut_append, pendingBut_cons] at hold
    rw [pendingBut, hperm.countP_eq, ← pendingBut, pendingBut_append, pendingBut_cons]
    exact hold
  | @lost _ _ _ _ _ front back e error hsplit htarget =>
    refine (pendingBut_mono hsub _ _).trans ?_
    have hold := hw sessionId
    rw [hsplit, pendingBut_append, pendingBut_cons] at hold
    rw [pendingBut_append]
    omega

def Call.isMove : Call → Bool
  | .move .. => true
  | _ => false

theorem max_emitAll (eventType : QueueEventType) (updated : List TurnInputQueueEntry) (q : Queue) :
    (emitAll q eventType updated).maxPendingPerSession = q.maxPendingPerSession := by
  rw [emitAll]
  induction updated generalizing q with
  | nil => rfl
  | cons e es ih => exact ih (q.emit _)

theorem max_replaceById (q : Queue) (queueId : String)
    (updater : TurnInputQueueEntry → Except TurnInputQueueError TurnInputQueueEntry) :
    (replaceById q queueId updater).2.maxPendingPerSession = q.maxPendingPerSession := by
  rw [replaceById]
  split
  · rfl
  · split
    · rfl
    · dsimp only
      split <;> rfl

theorem max_emitOk (eventType : QueueEventType) (a : Attempt TurnInputQueueEntry) :
    (emitOk eventType a).2.maxPendingPerSession = a.2.maxPendingPerSession := by
  obtain ⟨_ | _, _⟩ := a <;> rfl

theorem max_transitionSteeringBatch (q : Queue) (queueIds : List String) (targetTraceId : String)
    (allowed : List TurnInputQueueStatus) (eventType : QueueEventType)
    (transition : TurnInputQueueEntry → TurnInputQueueEntry) :
    (transitionSteeringBatch q queueIds targetTraceId allowed eventType transition).2.maxPendingPerSession =
      q.maxPendingPerSession := by
  rw [transitionSteeringBatch]
  dsimp only
  split
  · rfl
  · split
    · rfl
    · split
      · rfl
      · split
        · rfl
        · exact max_emitAll _ _ _

theorem max_perform (q : Queue) (call : Call) : (perform q call).2.maxPendingPerSession = q.maxPendingPerSession := by
  cases call with
  | enqueue request newId now =>
    rw [perform, Attempt.as, enqueue]
    split
    · rfl
    · dsimp only
      split
      · rfl
      · split <;> rfl
  | drop sessionId queueId statusVersion now =>
    rw [perform, Attempt.as, drop]
    split <;> rfl
  | move sessionId queueId statusVersion beforeQueueId afterQueueId =>
    rw [perform, Attempt.as, move]
    split
    · rfl
    · split
      · rfl
      · dsimp only
        split <;> rfl
  | reserveNext sessionId agentId expectedQueueId =>
    rw [perform, Attempt.as, reserveNext]
    split
    · rfl
    · split
      · rfl
      · split <;> rfl
  | reserveSteering sessionId agentId targetTraceId =>
    rw [perform, Attempt.as, reserveSteering]
    split
    · rfl
    · exact max_emitAll _ _ _
  | completeSteering queueIds targetTraceId now => exact max_transitionSteeringBatch _ _ _ _ _ _
  | compensateSteering queueIds targetTraceId => exact max_transitionSteeringBatch _ _ _ _ _ _
  | markRunning queueId traceId now =>
    rw [perform, Attempt.as, markRunning]
    split
    · rfl
    · rw [max_emitOk, max_replaceById]
  | requeue queueId => rw [perform, Attempt.as, requeue, max_emitOk, max_replaceById]
  | markTerminal queueId status now =>
    rw [perform, Attempt.as, markTerminal]
    split
    · rfl
    · exact max_replaceById _ _ _
  | markTerminalByTrace traceId status now =>
    rw [perform, Attempt.as, markTerminalByTrace]
    split
    · rfl
    · split
      · rfl
      · split
        · rfl
        · split <;> rfl

theorem reserveNext_ok {q : Queue} {sessionId agentId : String} {expectedQueueId : Option String} {e' : TurnInputQueueEntry}
    (h : (reserveNext q sessionId agentId expectedQueueId).1 = .ok (some e')) :
    ∃ front e back, q.entries = front ++ e :: back ∧ nextInput sessionId agentId e = true ∧
      (∀ x ∈ front, nextInput sessionId agentId x = false) ∧ e' = reserved e := by
  rw [reserveNext] at h
  split at h
  · cases h
  · split at h
    · cases h
    · next index e hlocate =>
      split at h
      · cases h
      · cases h
        obtain ⟨front, back, hsplit, -, hnext, hfirst⟩ := ListPositions.locate_eq_some hlocate
        exact ⟨front, e, back, hsplit, hnext, hfirst, rfl⟩

/-- What holds in every state that a queue can reach. -/
structure Disciplined (h : History) : Prop where
  one : ∀ sessionId agentId, reservedInputs sessionId agentId h.queue.entries ≤ 1
  /-- What is reserved is the first input in the list that is queued. -/
  earliest : ∀ sessionId agentId expectedQueueId e',
    (reserveNext h.queue sessionId agentId expectedQueueId).1 = .ok (some e') →
      ∃ front e back, h.queue.entries = front ++ e :: back ∧ nextInput sessionId agentId e = true ∧
        (∀ x ∈ front, nextInput sessionId agentId x = false) ∧ e' = reserved e
  capacity : WithinCapacity h.reopened h.queue.maxPendingPerSession h.queue.entries

theorem Disciplined.next {h : History} (hd : Disciplined h) (call : Call) : Disciplined (record h call) := by
  refine ⟨fun sessionId agentId => ?_, fun _ _ _ _ => reserveNext_ok, ?_⟩
  · exact reservedInputs_effect (described h.queue call) (hd.one sessionId agentId)
  · have := withinCapacity_effect (described h.queue call) hd.capacity
    rwa [← max_perform h.queue call] at this

theorem Disciplined.start (maxPendingPerSession : ℤ) : Disciplined (History.start maxPendingPerSession) :=
  ⟨fun _ _ => Nat.zero_le _, fun _ _ _ _ => reserveNext_ok, fun _ => Nat.zero_le _⟩

theorem movesToTarget_of_isMove {h : History} {call : Call} (hmove : call.isMove = false) : MovesToTarget h call := by
  cases call with
  | move => cases hmove
  | _ => trivial

theorem InOrder.run {sessionId agentId : String} {calls : List Call} {h : History} (ho : InOrder sessionId agentId h)
    (hr : Ready h calls) (hmoves : ∀ call ∈ calls, call.isMove = false) : InOrder sessionId agentId (run record h calls) := by
  induction calls generalizing h with
  | nil => exact ho
  | cons call calls ih =>
    have hmove := hmoves call List.mem_cons_self
    have hkept := (refused_iff_movesToTarget h call).mpr (movesToTarget_of_isMove hmove)
    refine ih (ho.next hr ?_) (hr.next hkept) fun c hc => hmoves c (List.mem_cons_of_mem call hc)
    rintro sessionId queueId statusVersion beforeQueueId afterQueueId rfl
    cases hmove

theorem InOrder.start (sessionId agentId : String) (maxPendingPerSession : ℤ) :
    InOrder sessionId agentId (History.start maxPendingPerSession) where
  inputs := rfl
  known := by simp [History.start]
  ran := by simp [History.start, Queue.start]
  served := .nil
  started := rfl

/-- At most one input of a session and an agent is reserved, the earliest queued one is reserved next, and not
counting steering input put back the capacity is kept; without moves the inputs run in the order of acceptance. -/
theorem queue_discipline (maxPendingPerSession : ℤ) (calls : List Call) (hfresh : (drawnIds calls).Nodup) :
    Disciplined (run record (History.start maxPendingPerSession) calls) ∧
      ((∀ call ∈ calls, call.isMove = false) → ∀ sessionId agentId,
        (inputIds sessionId agentId (run record (History.start maxPendingPerSession) calls).started).Sublist
          (inputIds sessionId agentId (run record (History.start maxPendingPerSession) calls).accepted)) := by
  constructor
  · exact run_invariant (I := Disciplined) (fun h call hd => Disciplined.next hd call) (Disciplined.start maxPendingPerSession) calls
  · intro hmoves sessionId agentId
    have ho := (InOrder.start sessionId agentId maxPendingPerSession).run (Ready.start maxPendingPerSession hfresh) hmoves
    rw [ho.started, ← inputIds_of_map_input sessionId agentId ho.inputs]
    exact List.filter_sublist

def requeuedRun : List Call :=
  twoInputs ++ [Call.reserveNext "s" "a" none, Call.markRunning "q1" "t" "t3", Call.requeue "q1", Call.reserveNext "s" "a" none,
    Call.markRunning "q1" "t" "t4", Call.markTerminal "q1" "completed" "t5", Call.reserveNext "s" "a" (some "q2"),
    Call.markRunning "q2" "t" "t6"]

theorem requeuedRun_disciplined : Disciplined (run record (History.start 20) requeuedRun) ∧
    (inputIds "s" "a" (run record (History.start 20) requeuedRun).started).Sublist
      (inputIds "s" "a" (run record (History.start 20) requeuedRun).accepted) ∧
    inputIds "s" "a" (run record (History.start 20) requeuedRun).started = ["q1", "q2"] := by
  have h := queue_discipline 20 requeuedRun (by decide)
  exact ⟨h.1, h.2 (by decide) "s" "a", by decide +kernel⟩

def steeringRequest : EnqueueRequest where
  sessionId := "s"
  agentId := "a"
  text := "steer"
  intent := "steer_current"
  steerSupported := true
  targetTraceId := some "t"

def compensatedRun : List Call :=
  [.enqueue steeringRequest "q1" "t1",
    .reserveSteering "s" "a" "t", .completeSteering ["q1"] "t" "t2",
    .enqueue { sessionId := "s", agentId := "a", text := "next" } "q2" "t3", .compensateSteering ["q1"] "t"]

/-- A queue for one entry holds two active ones. -/
theorem compensated_over_capacity : (run record (History.start 1) compensatedRun).queue.maxPendingPerSession = 1 ∧
    pending (run record (History.start 1) compensatedRun).queue.entries "s" = 2 := by
  decide +kernel

end OpenMinion.TurnInputQueue
