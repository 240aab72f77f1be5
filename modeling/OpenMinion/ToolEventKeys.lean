import OpenMinion.SeparatedTexts
import OpenMinion.SessionEventWrites

/-!
# The keys of canonical tool events

The id of a canonical tool event is derived from a key that joins its strings with colons. The
segments of the key between its colons may be read as the strings of several events.
-/
namespace OpenMinion.ToolEventKeys
open PythonText SeparatedTexts SessionEventWrites

/-- A string without white space around it that is not empty. -/
def Proper (s : String) : Prop := strip s = s ∧ s ≠ ""

instance (s : String) : Decidable (Proper s) := inferInstanceAs (Decidable (_ ∧ _))

/-- The two phases that `_prepare_event` distinguishes. -/
inductive Phase where
  | requested
  | terminal
  deriving DecidableEq

def Phase.text : Phase → String
  | .requested => "requested"
  | .terminal => "terminal"

structure ToolEvent where
  sessionId : String
  turnScopeId : String
  callId : String
  researchInvocationId : Option String
  phase : Phase
  proper : Proper sessionId ∧ Proper turnScopeId ∧ Proper callId ∧ ∀ rid ∈ researchInvocationId, Proper rid

def ToolEvent.linkage (e : ToolEvent) : ToolLinkage := ⟨e.turnScopeId, e.callId, e.researchInvocationId⟩

def ToolEvent.key (e : ToolEvent) : String := stableToolEventKey e.sessionId e.linkage e.phase.text

theorem ToolEvent.ext_fields {e f : ToolEvent} (hsession : e.sessionId = f.sessionId) (hturn : e.turnScopeId = f.turnScopeId)
    (hcall : e.callId = f.callId) (hresearch : e.researchInvocationId = f.researchInvocationId)
    (hphase : e.phase = f.phase) : e = f := by
  cases e
  cases f
  simp_all

instance : DecidableEq ToolEvent := fun e f =>
  decidable_of_iff (e.sessionId = f.sessionId ∧ e.turnScopeId = f.turnScopeId ∧ e.callId = f.callId ∧
      e.researchInvocationId = f.researchInvocationId ∧ e.phase = f.phase)
    ⟨fun ⟨hsession, hturn, hcall, hresearch, hphase⟩ => ToolEvent.ext_fields hsession hturn hcall hresearch hphase,
      fun h => by rw [h]; exact ⟨rfl, rfl, rfl, rfl, rfl⟩⟩

abbrev Segments := List (List Char)

def segmentsOf (s : String) : Segments := segments ':' s.toList

def researchWord : List Char := "research".toList

def ToolEvent.segments (e : ToolEvent) : Segments :=
  segmentsOf e.sessionId ++ (segmentsOf e.turnScopeId ++ (segmentsOf e.callId ++ (e.phase.text.toList ::
    match e.researchInvocationId with
    | none => []
    | some rid => researchWord :: segmentsOf rid)))

def keyHead : Segments := ["openminion".toList, "tool-transcript".toList, "v1".toList]

theorem segmentsOf_injective : Function.Injective segmentsOf := fun _ _ h =>
  String.toList_inj.mp (segments_injective ':' h)

def ToolEvent.body (e : ToolEvent) : List Char :=
  e.sessionId.toList ++ ':' :: (e.turnScopeId.toList ++ ':' :: (e.callId.toList ++ ':' :: (e.phase.text.toList ++
    match e.researchInvocationId with
    | none => []
    | some rid => ':' :: (researchWord ++ ':' :: rid.toList))))

theorem toList_joined {separator : String} (h : separator.toList = [':']) (head a b c d tail : String) :
    (head ++ a ++ separator ++ b ++ separator ++ c ++ separator ++ d ++ tail).toList = head.toList ++
      (a.toList ++ ':' :: (b.toList ++ ':' :: (c.toList ++ ':' :: (d.toList ++ tail.toList)))) := by
  simp [String.toList_append, h]

theorem toList_key (e : ToolEvent) : e.key.toList = "openminion:tool-transcript:v1:".toList ++ e.body := by
  obtain ⟨sessionId, turnScopeId, callId, researchInvocationId, phase, proper⟩ := e
  cases researchInvocationId with
  | none => exact toList_joined (by decide +kernel) _ _ _ _ _ ""
  | some rid =>
    have htail : (":research:" ++ rid).toList = ':' :: (researchWord ++ ':' :: rid.toList) := by
      rw [String.toList_append]
      rfl
    refine (toList_joined (by decide +kernel) _ _ _ _ _ (":research:" ++ rid)).trans ?_
    rw [htail]
    rfl

theorem segments_head (text : List Char) :
    SeparatedTexts.segments ':' ("openminion:tool-transcript:v1:".toList ++ text) =
      keyHead ++ SeparatedTexts.segments ':' text := by
  have hhead : "openminion:tool-transcript:v1:".toList ++ text = "openminion".toList ++ ':' :: ("tool-transcript".toList ++
      ':' :: ("v1".toList ++ ':' :: text)) := by
    have hliteral : "openminion:tool-transcript:v1:".toList = "openminion".toList ++ ':' :: ("tool-transcript".toList ++
        ':' :: ("v1".toList ++ [':'])) := by decide +kernel
    rw [hliteral]
    simp only [List.append_assoc, List.cons_append, List.nil_append]
  have hfirst : SeparatedTexts.segments ':' "openminion".toList = ["openminion".toList] :=
    segments_of_not_mem (by decide +kernel)
  have hsecond : SeparatedTexts.segments ':' "tool-transcript".toList = ["tool-transcript".toList] :=
    segments_of_not_mem (by decide +kernel)
  have hthird : SeparatedTexts.segments ':' "v1".toList = ["v1".toList] := segments_of_not_mem (by decide +kernel)
  rw [hhead, segments_append_cons, segments_append_cons, segments_append_cons, hfirst, hsecond, hthird]
  rfl

theorem segmentsOf_phase (phase : Phase) : segmentsOf phase.text = [phase.text.toList] := by
  cases phase <;> exact segments_of_not_mem (by decide +kernel)

theorem segments_body (e : ToolEvent) : SeparatedTexts.segments ':' e.body = e.segments := by
  have hphase := segmentsOf_phase e.phase
  rw [segmentsOf] at hphase
  rw [ToolEvent.body, ToolEvent.segments, segments_append_cons, segments_append_cons, segments_append_cons]
  cases e.researchInvocationId with
  | none =>
    dsimp only
    rw [List.append_nil, hphase]
    rfl
  | some rid =>
    have hword : SeparatedTexts.segments ':' researchWord = [researchWord] := segments_of_not_mem (by decide +kernel)
    dsimp only
    rw [segments_append_cons, segments_append_cons, hphase, hword]
    rfl

theorem segmentsOf_key (e : ToolEvent) : segmentsOf e.key = keyHead ++ e.segments := by
  rw [segmentsOf, toList_key, segments_head, segments_body]

theorem key_eq_iff (e f : ToolEvent) : e.key = f.key ↔ e.segments = f.segments := by
  rw [← segmentsOf_injective.eq_iff, segmentsOf_key, segmentsOf_key, List.append_cancel_left_eq]

def properText (group : Segments) : Option String :=
  if group = [] then none
  else
    let text := String.ofList ([':'].intercalate group)
    if Proper text then some text else none

def Phase.ofText (text : List Char) : Option Phase :=
  if text = Phase.requested.text.toList then some .requested
  else if text = Phase.terminal.text.toList then some .terminal
  else none

def readEnd : Segments → Option (Phase × Option String)
  | [] => none
  | phase :: rest => do
    let phase ← Phase.ofText phase
    match rest with
    | [] => return (phase, none)
    | word :: rest => if word = researchWord then return (phase, some (← properText rest)) else none

theorem properText_eq_some {group : Segments} (hgroup : ∀ segment ∈ group, ':' ∉ segment) {s : String} :
    properText group = some s ↔ segmentsOf s = group ∧ Proper s := by
  rw [segmentsOf, segments_eq_iff hgroup, properText]
  by_cases hempty : group = []
  · simp [hempty]
  · have hjoin : String.ofList ([':'].intercalate group) = s ↔ s.toList = [':'].intercalate group := by
      rw [← String.toList_inj, String.toList_ofList, eq_comm]
    simp only [if_neg hempty]
    constructor
    · intro h
      split at h
      · next hproper =>
        cases h
        exact ⟨⟨hempty, hjoin.mp rfl⟩, hproper⟩
      · cases h
    · rintro ⟨⟨-, htext⟩, hproper⟩
      rw [hjoin.mpr htext, if_pos hproper]

theorem Phase.ofText_eq_some {text : List Char} {phase : Phase} : Phase.ofText text = some phase ↔ text = phase.text.toList := by
  have hne : Phase.terminal.text.toList ≠ Phase.requested.text.toList := by decide +kernel
  rw [Phase.ofText]
  split
  · next h =>
    rw [h]
    cases phase with
    | requested => simp
    | terminal => simpa using fun heq => hne heq.symm
  · next h =>
    split
    · next h' =>
      rw [h']
      cases phase with
      | requested => simpa using hne
      | terminal => simp
    · next h' =>
      cases phase with
      | requested => simpa using h
      | terminal => simpa using h'

def endSegments (phase : Phase) : Option String → Segments
  | none => [phase.text.toList]
  | some rid => phase.text.toList :: researchWord :: segmentsOf rid

theorem readEnd_eq_some {group : Segments} (hgroup : ∀ segment ∈ group, ':' ∉ segment) {phase : Phase}
    {research : Option String} :
    readEnd group = some (phase, research) ↔ endSegments phase research = group ∧ ∀ rid ∈ research, Proper rid := by
  cases group with
  | nil => cases research <;> simp [readEnd, endSegments]
  | cons text rest =>
    rw [readEnd]
    cases hphase : Phase.ofText text with
    | none =>
      have hne : phase.text.toList ≠ text := by
        intro heq
        rw [Phase.ofText_eq_some.mpr heq.symm] at hphase
        cases hphase
      cases research <;> simp [endSegments, hne]
    | some found =>
      obtain rfl := Phase.ofText_eq_some.mp hphase
      have hfound : phase.text.toList = found.text.toList ↔ found = phase := by
        rw [← Phase.ofText_eq_some.trans eq_comm, Phase.ofText_eq_some.mpr rfl, Option.some.injEq]
      cases rest with
      | nil =>
        cases research with
        | none => simp [endSegments, hfound]
        | some rid => simp [endSegments]
      | cons word rest =>
        have hrest : ∀ segment ∈ rest, ':' ∉ segment :=
          fun segment hsegment => hgroup segment (List.mem_cons_of_mem _ (List.mem_cons_of_mem _ hsegment))
        cases research with
        | none =>
          simp only [Option.bind_eq_bind, Option.bind_some, endSegments]
          split
          · cases properText rest <;> simp
          · simp
        | some rid =>
          by_cases hword : word = researchWord
          · simp only [Option.bind_eq_bind, Option.bind_some, if_pos hword, endSegments, List.cons.injEq, hfound,
              Option.mem_some_iff, forall_eq']
            cases htext : properText rest with
            | none =>
              have hnone : ¬ (segmentsOf rid = rest ∧ Proper rid) := by
                intro h
                rw [(properText_eq_some hrest).mpr h] at htext
                cases htext
              constructor
              · exact fun h => nomatch h
              · rintro ⟨⟨-, -, hsegments⟩, hproper⟩
                exact absurd ⟨hsegments, hproper⟩ hnone
            | some s =>
              have hs := (properText_eq_some hrest).mp htext
              have hrid : segmentsOf rid = rest ↔ s = rid := by
                rw [← hs.1, segmentsOf_injective.eq_iff, eq_comm]
              simp only [Option.bind_some, Option.pure_def, Option.some.injEq, Prod.mk.injEq, hrid, hword, true_and]
              constructor
              · rintro ⟨rfl, rfl⟩
                exact ⟨⟨rfl, rfl⟩, hs.2⟩
              · exact fun h => h.1
          · have hne : researchWord ≠ word := fun heq => hword heq.symm
            simp [if_neg hword, endSegments, hne]

def readGroups (session turn call rest : Segments) : Option ToolEvent :=
  match properText session, properText turn, properText call, readEnd rest with
  | some sessionId, some turnScopeId, some callId, some (phase, research) =>
    if hproper : Proper sessionId ∧ Proper turnScopeId ∧ Proper callId ∧ ∀ rid ∈ research, Proper rid then
      some ⟨sessionId, turnScopeId, callId, research, phase, hproper⟩
    else none
  | _, _, _, _ => none

def readings (all : Segments) : List ToolEvent :=
  (cuts all).flatMap fun (session, all) => (cuts all).flatMap fun (turn, all) =>
    (cuts all).filterMap fun (call, rest) => readGroups session turn call rest

theorem readGroups_eq_some {session turn call rest : Segments}
    (hcolon : ∀ segment ∈ session ++ (turn ++ (call ++ rest)), ':' ∉ segment) {e : ToolEvent} :
    readGroups session turn call rest = some e ↔ segmentsOf e.sessionId = session ∧ segmentsOf e.turnScopeId = turn ∧
      segmentsOf e.callId = call ∧ endSegments e.phase e.researchInvocationId = rest := by
  have hproper := e.proper
  have hs : ∀ segment ∈ session, ':' ∉ segment := fun segment h => hcolon segment (by simp [h])
  have ht : ∀ segment ∈ turn, ':' ∉ segment := fun segment h => hcolon segment (by simp [h])
  have hc : ∀ segment ∈ call, ':' ∉ segment := fun segment h => hcolon segment (by simp [h])
  have hr : ∀ segment ∈ rest, ':' ∉ segment := fun segment h => hcolon segment (by simp [h])
  constructor
  · intro h
    rw [readGroups] at h
    split at h
    · next hsession hturn hcall hend =>
      split at h
      · cases h
        exact ⟨((properText_eq_some hs).mp hsession).1, ((properText_eq_some ht).mp hturn).1,
          ((properText_eq_some hc).mp hcall).1, ((readEnd_eq_some hr).mp hend).1⟩
      · cases h
    · cases h
  · rintro ⟨hsession, hturn, hcall, hend⟩
    rw [readGroups, (properText_eq_some hs).mpr ⟨hsession, hproper.1⟩, (properText_eq_some ht).mpr ⟨hturn, hproper.2.1⟩,
      (properText_eq_some hc).mpr ⟨hcall, hproper.2.2.1⟩, (readEnd_eq_some hr).mpr ⟨hend, hproper.2.2.2⟩]
    exact dif_pos hproper

theorem segments_eq (e : ToolEvent) : e.segments = segmentsOf e.sessionId ++ (segmentsOf e.turnScopeId ++
    (segmentsOf e.callId ++ endSegments e.phase e.researchInvocationId)) := by
  rw [ToolEvent.segments]
  cases e.researchInvocationId <;> rfl

theorem mem_readings {all : Segments} (hcolon : ∀ segment ∈ all, ':' ∉ segment) (e : ToolEvent) :
    e ∈ readings all ↔ e.segments = all := by
  simp only [readings, List.mem_flatMap, List.mem_filterMap, Prod.exists, mem_cuts]
  rw [segments_eq]
  constructor
  · rintro ⟨session, all', rfl, turn, all'', rfl, call, rest, rfl, hread⟩
    obtain ⟨hsession, hturn, hcall, hend⟩ := (readGroups_eq_some hcolon).mp hread
    rw [hsession, hturn, hcall, hend]
  · rintro rfl
    exact ⟨_, _, rfl, _, _, rfl, _, _, rfl, (readGroups_eq_some hcolon).mpr ⟨rfl, rfl, rfl, rfl⟩⟩

theorem segments_colon (e : ToolEvent) : ∀ segment ∈ e.segments, ':' ∉ segment := by
  rw [← segments_body]
  exact fun segment h => not_mem_of_mem_segments h

def OnlyReading (e : ToolEvent) : Prop := ∀ f ∈ readings e.segments, f = e

/-- The key tells the event from every other, and so does its id. -/
def Distinguished (e : ToolEvent) : Prop :=
  ∀ f : ToolEvent, f ≠ e → f.key ≠ e.key ∧ ∀ rt : Runtime, Function.Injective rt.uuid5Hex →
    stableToolEventId rt f.sessionId f.linkage f.phase.text ≠ stableToolEventId rt e.sessionId e.linkage e.phase.text

/-- **An event is told from every other exactly when its segments have no other reading.** -/
theorem distinguished_iff (e : ToolEvent) : Distinguished e ↔ OnlyReading e := by
  constructor
  · intro h f hf
    by_contra hne
    exact (h f hne).1 ((key_eq_iff f e).mpr ((mem_readings (segments_colon e) f).mp hf))
  · intro h f hne
    have hkey : f.key ≠ e.key := fun heq =>
      hne (h f ((mem_readings (segments_colon e) f).mpr ((key_eq_iff f e).mp heq)))
    exact ⟨hkey, fun rt hinjective heq => hkey (hinjective heq)⟩

/-- No string of the event has a colon, and it has no research id. -/
structure Plain (e : ToolEvent) : Prop where
  session : ':' ∉ e.sessionId.toList
  turn : ':' ∉ e.turnScopeId.toList
  call : ':' ∉ e.callId.toList
  research : e.researchInvocationId = none

theorem length_segmentsOf (s : String) : 0 < (segmentsOf s).length := List.length_pos_of_ne_nil (segments_ne_nil _ _)

theorem onlyReading_of_plain {e : ToolEvent} (h : Plain e) : OnlyReading e := by
  intro f hf
  have hsame := (mem_readings (segments_colon e) f).mp hf
  have hs := length_segmentsOf f.sessionId
  have ht := length_segmentsOf f.turnScopeId
  have hc := length_segmentsOf f.callId
  have hsession : segmentsOf e.sessionId = [e.sessionId.toList] := segments_of_not_mem h.session
  have hturn : segmentsOf e.turnScopeId = [e.turnScopeId.toList] := segments_of_not_mem h.turn
  have hcall : segmentsOf e.callId = [e.callId.toList] := segments_of_not_mem h.call
  have hle : (endSegments e.phase e.researchInvocationId).length ≤ (endSegments f.phase f.researchInvocationId).length := by
    rw [h.research]
    cases f.researchInvocationId <;> simp [endSegments]
  rw [segments_eq, segments_eq] at hsame
  have hlength := congrArg List.length hsame
  simp only [List.length_append, hsession, hturn, hcall, List.length_singleton] at hlength
  obtain ⟨hsession', hsame⟩ := List.append_inj hsame (by rw [hsession, List.length_singleton]; omega)
  obtain ⟨hturn', hsame⟩ := List.append_inj hsame (by rw [hturn, List.length_singleton]; omega)
  obtain ⟨hcall', hend⟩ := List.append_inj hsame (by rw [hcall, List.length_singleton]; omega)
  have hcolon : ∀ segment ∈ endSegments e.phase e.researchInvocationId, ':' ∉ segment := by
    intro segment hsegment
    exact segments_colon e segment (by rw [segments_eq]; simp [hsegment])
  have hread := (readEnd_eq_some hcolon).mpr ⟨hend, f.proper.2.2.2⟩
  rw [(readEnd_eq_some hcolon).mpr ⟨rfl, e.proper.2.2.2⟩] at hread
  obtain ⟨hphase, hresearch⟩ := Prod.mk.inj (Option.some.inj hread)
  exact ToolEvent.ext_fields (segmentsOf_injective hsession') (segmentsOf_injective hturn') (segmentsOf_injective hcall')
    hresearch.symm hphase.symm

def leftReading : ToolEvent := ⟨"a:b", "c", "d", none, .requested, by decide +kernel⟩

def rightReading : ToolEvent := ⟨"a", "b:c", "d", none, .requested, by decide +kernel⟩

/-- Two events have one key when a colon belongs to the session id or to the turn scope. -/
theorem colon_shifted : ¬ ∀ e f : ToolEvent, f ≠ e → f.key ≠ e.key := by
  intro h
  exact h leftReading rightReading (by decide +kernel) (by decide +kernel)

end OpenMinion.ToolEventKeys
