import Mathlib.Data.List.Nodup
import OpenMinion.TransitionRuns
import OpenMinion.TurnInputEffects

/-!
# No queued input is lost

The history of a queue keeps what was accepted, what has run, and what was put back from `completed`. As long as every
move names a target that is there, the entries are the accepted ones in some order.
-/
namespace OpenMinion.TurnInputQueue
open TransitionRuns

structure History where
  queue : Queue
  accepted : List TurnInputQueueEntry := []
  started : List TurnInputQueueEntry := []
  reopened : List String := []

def History.start (maxPendingPerSession : ℤ) : History := { queue := Queue.start maxPendingPerSession }

def newInput (q : Queue) : Call → Except TurnInputQueueError Reply → Option TurnInputQueueEntry
  | .enqueue .., .ok (.entry e) => if e ∈ q.entries then none else some e
  | _, _ => none

def firstStart (started : List TurnInputQueueEntry) : Call → Except TurnInputQueueError Reply → Option TurnInputQueueEntry
  | .markRunning .., .ok (.entry e) => if e.queueId ∈ started.map (·.queueId) then none else some e
  | _, _ => none

def putBack (before after : List TurnInputQueueEntry) : Call → List String
  | .compensateSteering .. =>
    (before.filter fun e => e.status = .completed ∧ ∃ e' ∈ after, e'.queueId = e.queueId ∧ e'.status = .queued).map
      (·.queueId)
  | _ => []

def record (h : History) (call : Call) : History where
  queue := (perform h.queue call).2
  accepted := h.accepted ++ (newInput h.queue call (perform h.queue call).1).toList
  started := h.started ++ (firstStart h.started call (perform h.queue call).1).toList
  reopened := h.reopened ++ putBack h.queue.entries (perform h.queue call).2.entries call

def drawnIds : List Call → List String
  | [] => []
  | .enqueue _ newId _ :: calls => newId :: drawnIds calls
  | _ :: calls => drawnIds calls

def input (e : TurnInputQueueEntry) : String × String × String × String × TurnInputIntent :=
  (e.queueId, e.sessionId, e.agentId, e.text, e.intent)

/-- What a call has to keep. -/
structure KeepsInputs (h : History) (call : Call) : Prop where
  conserved : ((record h call).queue.entries.map input).Perm ((record h call).accepted.map input)
  versions : ∀ e ∈ h.queue.entries, ∀ e' ∈ (record h call).queue.entries, e'.queueId = e.queueId →
    e.statusVersion ≤ e'.statusVersion
  refused : ∀ error, (perform h.queue call).1 = .error error → (record h call).queue.entries = h.queue.entries

/-- A move that gets as far as taking its entry out names no target, or another entry of the session. -/
def MovesToTarget (h : History) : Call → Prop
  | .move sessionId queueId statusVersion beforeQueueId afterQueueId =>
    ¬(beforeQueueId.getD "" ≠ "" ∧ afterQueueId.getD "" ≠ "") →
      ∀ index entry, findQueued h.queue sessionId queueId statusVersion "Only queued entries can be moved." =
        .ok (index, entry) → TargetPresent (h.queue.entries.eraseIdx index) sessionId beforeQueueId afterQueueId
  | _ => True

theorem input_eq_of_same {e e' : TurnInputQueueEntry} (h : SameInput e e') : input e' = input e := by
  rw [input, input, h.queueId, h.sessionId, h.agentId, h.text, h.intent]

theorem queueId_of_input {entries others : List TurnInputQueueEntry} (h : (entries.map input).Perm (others.map input)) :
    (entries.map (·.queueId)).Perm (others.map (·.queueId)) := by
  have := h.map Prod.fst
  simpa [List.map_map, Function.comp_def, input] using this

theorem map_input_of_touch {call : Call} {entries entries' : List TurnInputQueueEntry}
    (h : List.Forall₂ (Touch call) entries entries') : entries'.map input = entries.map input := by
  induction h with
  | nil => rfl
  | cons head tail ih => rw [List.map_cons, List.map_cons, ih, input_eq_of_same head.same]

/-- What a call leaves, apart from a move that loses its entry. -/
structure Passed (entries entries' : List TurnInputQueueEntry) (new : Option TurnInputQueueEntry) : Prop where
  inputs : (entries'.map input).Perm (entries.map input ++ new.toList.map input)
  partner : ∀ e ∈ entries, ∃ e' ∈ entries', SameInput e e'

theorem Passed.same (entries : List TurnInputQueueEntry) : Passed entries entries none :=
  ⟨by simp, fun e he => ⟨e, he, .refl e⟩⟩

theorem Passed.replace {front back : List TurnInputQueueEntry} {e e' : TurnInputQueueEntry} (h : SameInput e e') :
    Passed (front ++ e :: back) (front ++ e' :: back) none := by
  constructor
  · simp [input_eq_of_same h]
  · intro x hx
    rw [List.mem_append, List.mem_cons] at hx
    obtain hx | rfl | hx := hx
    · exact ⟨x, by simp [hx], .refl x⟩
    · exact ⟨e', by simp, h⟩
    · exact ⟨x, by simp [hx], .refl x⟩

theorem passed_of_effect {q : Queue} {call : Call} {result : Except TurnInputQueueError Reply}
    {entries : List TurnInputQueueEntry} (h : Effect q call result entries)
    (hfresh : ∀ id ∈ drawnIds [call], id ∉ q.entries.map (·.queueId))
    (hkept : ∀ error, result = .error error → entries = q.entries) : Passed q.entries entries (newInput q call result) := by
  cases h with
  | refused _ error =>
    have hnone : newInput q call (.error error) = none := by cases call <;> rfl
    rw [hnone]
    exact .same _
  | @found request newId now e he =>
    have hnone : newInput q (.enqueue request newId now) (.ok (.entry e)) = none := if_pos he
    rw [hnone]
    exact .same _
  | @accepted request newId now e hid hstatus hroom =>
    have hnew : e ∉ q.entries := by
      intro he
      refine hfresh newId (by simp [drawnIds]) ?_
      rw [← hid]
      exact List.mem_map_of_mem he
    have hsome : newInput q (.enqueue request newId now) (.ok (.entry e)) = some e := if_neg hnew
    rw [hsome]
    exact ⟨by simp, fun x hx => ⟨x, by simp [hx], .refl x⟩⟩
  | @touched _ reply _ hcall hstart h =>
    have hnone : newInput q call (.ok reply) = none := by
      cases call with
      | enqueue request newId now => exact absurd rfl (hcall request newId now)
      | _ => rfl
    rw [hnone]
    refine ⟨by simp [map_input_of_touch h], fun e he => ?_⟩
    obtain ⟨i, hi, rfl⟩ := List.getElem_of_mem he
    have hlen := h.length_eq
    exact ⟨entries[i], List.getElem_mem _, (h.get hi (hlen ▸ hi)).same⟩
  | reserved hsplit hnext hfirst hfree =>
    rw [hsplit]
    exact .replace (sameInput_reserved _)
  | started hsplit hstatus =>
    rw [hsplit]
    exact .replace (sameInput_running _ _ _)
  | @moved _ _ _ _ _ front back _ e hsplit htarget hperm =>
    have hreplaced : Passed q.entries (front ++ moved e :: back) none := by
      rw [hsplit]
      exact .replace (sameInput_moved e)
    refine ⟨(hperm.map input).trans hreplaced.inputs, fun x hx => ?_⟩
    obtain ⟨y, hy, hsame⟩ := hreplaced.partner x hx
    exact ⟨y, hperm.mem_iff.mpr hy, hsame⟩
  | @lost _ _ _ _ _ front back e error hsplit htarget =>
    have heq := congrArg List.length (hkept error rfl)
    rw [hsplit] at heq
    simp at heq

/-- The entries are the accepted ones, and no identifier is drawn twice. -/
structure Ready (h : History) (calls : List Call) : Prop where
  conserved : (h.queue.entries.map input).Perm (h.accepted.map input)
  fresh : (h.accepted.map (·.queueId) ++ drawnIds calls).Nodup

namespace Ready

variable {h : History} {call : Call} {calls : List Call}

theorem ids (hr : Ready h calls) : (h.queue.entries.map (·.queueId)).Nodup :=
  (queueId_of_input hr.conserved).nodup_iff.mpr (List.nodup_append.mp hr.fresh).1

theorem drawnIds_cons (call : Call) (calls : List Call) : drawnIds (call :: calls) = drawnIds [call] ++ drawnIds calls := by
  cases call <;> rfl

theorem drawn (hr : Ready h (call :: calls)) : ∀ id ∈ drawnIds [call], id ∉ h.queue.entries.map (·.queueId) := by
  intro id hid hmem
  rw [(queueId_of_input hr.conserved).mem_iff] at hmem
  have hin : id ∈ drawnIds (call :: calls) := by
    rw [drawnIds_cons]
    exact List.mem_append_left _ hid
  exact (List.nodup_append.mp hr.fresh).2.2 id hmem id hin rfl

theorem newInput_ids (q : Queue) (call : Call) :
    ((newInput q call (perform q call).1).toList.map (·.queueId)).Sublist (drawnIds [call]) := by
  cases call with
  | enqueue request newId now =>
    have hd : Effect q (.enqueue request newId now) _ _ := described q (.enqueue request newId now)
    generalize (perform q (.enqueue request newId now)).1 = result at hd ⊢
    generalize (perform q (.enqueue request newId now)).2.entries = entries at hd
    cases hd with
    | refused error => exact List.nil_sublist _
    | found he => simp [newInput, he]
    | accepted hid hstatus hroom =>
      rw [newInput]
      split
      · exact List.nil_sublist _
      · simp [drawnIds, hid]
    | touched hcall hstart h => exact absurd rfl (hcall _ _ _)
  | _ => exact List.nil_sublist _

theorem next (hr : Ready h (call :: calls))
    (hkept : ∀ error, (perform h.queue call).1 = .error error → (perform h.queue call).2.entries = h.queue.entries) :
    Ready (record h call) calls := by
  have hpassed := passed_of_effect (described h.queue call) hr.drawn hkept
  constructor
  · refine hpassed.inputs.trans ?_
    simp only [record, List.map_append]
    exact hr.conserved.append_right _
  · refine List.Nodup.sublist ?_ hr.fresh
    simp only [record, List.map_append, List.append_assoc]
    rw [drawnIds_cons call calls]
    exact (List.Sublist.refl _).append ((newInput_ids h.queue call).append (List.Sublist.refl _))

theorem keepsInputs (hr : Ready h (call :: calls))
    (hkept : ∀ error, (perform h.queue call).1 = .error error → (perform h.queue call).2.entries = h.queue.entries) :
    KeepsInputs h call := by
  have hnext := hr.next hkept
  refine ⟨hnext.conserved, ?_, hkept⟩
  intro e he e' he' hid
  obtain ⟨e'', he'', hsame⟩ := (passed_of_effect (described h.queue call) hr.drawn hkept).partner e he
  have heq : e' = e'' := List.inj_on_of_nodup_map hnext.ids he' he'' (hid.trans hsame.queueId.symm)
  rw [heq]
  exact hsame.statusVersion

end Ready

theorem Ready.start (maxPendingPerSession : ℤ) {calls : List Call} (hfresh : (drawnIds calls).Nodup) :
    Ready (History.start maxPendingPerSession) calls := ⟨List.Perm.refl _, by simpa [History.start] using hfresh⟩

theorem perform_move {q : Queue} {sessionId queueId : String} {statusVersion : Option ℤ}
    {beforeQueueId afterQueueId : Option String} {index : ℕ} {entry : TurnInputQueueEntry}
    (hboth : ¬(beforeQueueId.getD "" ≠ "" ∧ afterQueueId.getD "" ≠ ""))
    (hfind : findQueued q sessionId queueId statusVersion "Only queued entries can be moved." = .ok (index, entry))
    (htarget : ¬TargetPresent (q.entries.eraseIdx index) sessionId beforeQueueId afterQueueId) :
    ∃ error, perform q (.move sessionId queueId statusVersion beforeQueueId afterQueueId) =
      (.error error, q.withEntries (q.entries.eraseIdx index)) := by
  rw [perform, Attempt.as, move, if_neg hboth, hfind]
  dsimp only
  cases hresolve : resolveMoveIndex (q.entries.eraseIdx index) sessionId beforeQueueId afterQueueId with
  | error e => exact ⟨e, rfl⟩
  | ok target => exact absurd (resolveMoveIndex_ok hresolve).2 htarget

theorem refused_iff_movesToTarget (h : History) (call : Call) :
    (∀ error, (perform h.queue call).1 = .error error → (perform h.queue call).2.entries = h.queue.entries) ↔
      MovesToTarget h call := by
  constructor
  · intro hkept
    cases call with
    | move sessionId queueId statusVersion beforeQueueId afterQueueId =>
      intro hboth index entry hfind
      by_contra htarget
      obtain ⟨error, hp⟩ := perform_move hboth hfind htarget
      obtain ⟨front, back, hsplit, hlen, -⟩ := findQueued_ok hfind
      have heq := congrArg List.length (hkept error (by rw [hp]))
      rw [hp, Queue.entries_withEntries, hsplit, ListPositions.eraseIdx_at hlen] at heq
      simp at heq
    | _ => trivial
  · intro htargets error herror
    have hd : Effect h.queue call _ _ := described h.queue call
    rw [herror] at hd
    generalize hentries : (perform h.queue call).2.entries = entries at hd ⊢
    cases hd with
    | refused => rfl
    | @lost sessionId queueId statusVersion beforeQueueId afterQueueId front back e _ hsplit htarget =>
      rw [perform, Attempt.as, move] at herror hentries
      split at herror
      · next hboth => rw [if_pos hboth] at hentries; exact hentries.symm
      · next hboth =>
        rw [if_neg hboth] at hentries
        cases hfind : findQueued h.queue sessionId queueId statusVersion "Only queued entries can be moved." with
        | error e => rw [hfind] at hentries; exact hentries.symm
        | ok found =>
          obtain ⟨index, entry⟩ := found
          rw [hfind] at herror
          dsimp only at herror
          cases hresolve : resolveMoveIndex (h.queue.entries.eraseIdx index) sessionId beforeQueueId afterQueueId with
          | ok target => rw [hresolve] at herror; cases herror
          | error e => exact absurd (htargets hboth index entry hfind) (resolveMoveIndex_error hresolve)

/-- No input is lost or duplicated in a run, no version decreases and what is refused changes nothing,
exactly when every move names a target that is there. -/
theorem inputs_kept_iff (maxPendingPerSession : ℤ) (calls : List Call) (hfresh : (drawnIds calls).Nodup) :
    Guarded record KeepsInputs (History.start maxPendingPerSession) calls ↔
      Guarded record MovesToTarget (History.start maxPendingPerSession) calls := by
  have hready := Ready.start maxPendingPerSession hfresh
  generalize History.start maxPendingPerSession = h at hready
  clear hfresh
  induction calls generalizing h with
  | nil => exact ⟨fun _ => .nil h, fun _ => .nil h⟩
  | cons call calls ih =>
    constructor
    · rintro (_ | ⟨head, tail⟩)
      exact .cons ((refused_iff_movesToTarget h call).mp head.refused) ((ih _ (hready.next head.refused)).mp tail)
    · rintro (_ | ⟨head, tail⟩)
      have hkept := (refused_iff_movesToTarget h call).mpr head
      exact .cons (hready.keepsInputs hkept) ((ih _ (hready.next hkept)).mpr tail)

def twoInputs : List Call :=
  [.enqueue { sessionId := "s", agentId := "a", text := "first" } "q1" "t1",
    .enqueue { sessionId := "s", agentId := "a", text := "second" } "q2" "t2"]

/-- The second input moves before the first one. -/
theorem moved_inputs_kept :
    Guarded record KeepsInputs (History.start 20) (twoInputs ++ [Call.move "s" "q2" (some 1) (some "q1") none]) := by
  apply (inputs_kept_iff 20 _ (by decide)).mpr
  refine .cons trivial (.cons trivial (.cons ?_ (.nil _)))
  intro _ index entry hfind
  have hindex : index = 1 := by
    have hfound : (findQueued (run record (History.start 20) twoInputs).queue "s" "q2" (some 1)
        "Only queued entries can be moved.").toOption.map Prod.fst = some 1 := by decide +kernel
    have := congrArg (fun found => (Except.toOption found).map Prod.fst) hfind
    exact Option.some_inj.mp (this.symm.trans hfound)
  subst hindex
  have hfirst : ∃ e ∈ (run record (History.start 20) twoInputs).queue.entries.eraseIdx 1,
      e.sessionId = "s" ∧ e.queueId = "q1" := by decide +kernel
  exact .inr hfirst

/-- A move before an entry that is not there takes its own entry out of the queue and raises. -/
theorem moved_input_lost :
    ¬Guarded record KeepsInputs (History.start 20) (twoInputs ++ [Call.move "s" "q2" none (some "q3") none]) := by
  rintro (_ | ⟨_, _ | ⟨_, _ | ⟨head, _⟩⟩⟩)
  have hlen := head.conserved.length_eq
  have hlost : (run record (History.start 20) (twoInputs ++ [Call.move "s" "q2" none (some "q3") none])).queue.entries.length = 1 ∧
      (run record (History.start 20) (twoInputs ++ [Call.move "s" "q2" none (some "q3") none])).accepted.length = 2 := by
    decide +kernel
  rw [List.length_map, List.length_map] at hlen
  exact absurd (hlost.1.symm.trans (hlen.trans hlost.2)) (by decide)

end OpenMinion.TurnInputQueue
