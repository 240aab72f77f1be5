import Mathlib.Data.Int.Notation
import Mathlib.Data.List.Nodup
import Mathlib.Logic.Function.Basic
import OpenMinion.TransitionRuns

/-!
# Rounds of summaries

A session's summary is a base and the deltas made since. `maybe_compact` joins them to a new base and counts the deltas
from one again, so that a second round loses what was made before.
-/
namespace OpenMinion.SummaryRounds
open TransitionRuns

section Order
variable {α : Type} {words more : List (List α)} {text rest : List α}

def InOrder : List (List α) → List α → Prop
  | [], _ => True
  | word :: words, text => ∃ before after, text = before ++ word ++ after ∧ InOrder words after

theorem InOrder.prepend (h : InOrder words text) (before : List α) : InOrder words (before ++ text) := by
  cases words with
  | nil => trivial
  | cons word words =>
    obtain ⟨front, after, rfl, hafter⟩ := h
    exact ⟨before ++ front, after, by simp only [List.append_assoc], hafter⟩

theorem InOrder.append (h : InOrder words text) (hmore : InOrder more rest) : InOrder (words ++ more) (text ++ rest) := by
  induction words generalizing text with
  | nil => exact hmore.prepend text
  | cons word words ih =>
    obtain ⟨before, after, rfl, hafter⟩ := h
    exact ⟨before, after ++ rest, by simp only [List.append_assoc], ih hafter⟩

theorem inOrder_singleton (word : List α) : InOrder [word] word := ⟨[], [], by simp, trivial⟩

theorem inOrder_flatten (words : List (List α)) : InOrder words words.flatten := by
  induction words with
  | nil => trivial
  | cons word words ih => exact (inOrder_singleton word).append ih

theorem inOrder_intercalate (separator : List α) (words : List (List α)) : InOrder words (separator.intercalate words) := by
  induction words with
  | nil => trivial
  | cons word words ih =>
    cases words with
    | nil => simpa using inOrder_singleton word
    | cons next words =>
      rw [List.intercalate_cons_cons, List.append_assoc]
      exact (inOrder_singleton word).append (ih.prepend separator)

theorem InOrder.subset (h : InOrder words text) {word : List α} (hword : word ∈ words) : word ⊆ text := by
  induction words generalizing text with
  | nil => cases hword
  | cons first words ih =>
    obtain ⟨before, after, rfl, hafter⟩ := h
    rcases List.mem_cons.mp hword with rfl | hmem
    · intro c hc
      exact List.mem_append_left _ (List.mem_append_right _ hc)
    · intro c hc
      exact List.mem_append_right _ (ih hafter hmem hc)

end Order

/-- What `_stable_hash` is taken of. -/
inductive HashPayload where
  | delta (sessionId agentId : String) (seq : ℕ) (content : String)
  | disabled (sessionId agentId : String)
  deriving DecidableEq

structure SummaryDelta (Ref : Type) where
  sessionId : String
  seq : ℕ
  deltaRef : Ref
  content : String

structure ContextSummaryState (Ref : Type) where
  enabled : Bool
  summaryBase : String → Option String := fun _ => none
  summaryDeltas : String → List (SummaryDelta Ref) := fun _ => []

section Calls
variable {Ref : Type} (stableHash : HashPayload → Ref) (s : ContextSummaryState Ref)

def makeDelta (sessionId agentId content : String) : SummaryDelta Ref × ContextSummaryState Ref :=
  if !s.enabled then (⟨sessionId, 0, stableHash (.disabled sessionId agentId), ""⟩, s)
  else
    let deltas := s.summaryDeltas sessionId
    let seq := deltas.length + 1
    let delta := ⟨sessionId, seq, stableHash (.delta sessionId agentId seq content), content⟩
    (delta, { s with summaryDeltas := Function.update s.summaryDeltas sessionId (deltas ++ [delta]) })

def maybeCompact (sessionId : String) (threshold : ℤ) : Bool × ContextSummaryState Ref :=
  if !s.enabled then (false, s)
  else
    let deltas := s.summaryDeltas sessionId
    if deltas.length < threshold then (false, s)
    else
      let combined := "\n".intercalate (deltas.map SummaryDelta.content)
      (true, { s with
        summaryBase := Function.update s.summaryBase sessionId (some combined)
        summaryDeltas := Function.update s.summaryDeltas sessionId [] })

theorem makeDelta_enabled (h : s.enabled = true) (sessionId agentId content : String) :
    makeDelta stableHash s sessionId agentId content =
      let seq := (s.summaryDeltas sessionId).length + 1
      let delta := ⟨sessionId, seq, stableHash (.delta sessionId agentId seq content), content⟩
      (delta, { s with summaryDeltas := Function.update s.summaryDeltas sessionId (s.summaryDeltas sessionId ++ [delta]) }) :=
  if_neg (by rw [h]; decide)

theorem maybeCompact_enabled (h : s.enabled = true) (sessionId : String) (threshold : ℤ) :
    (maybeCompact s sessionId threshold).2 =
      if (s.summaryDeltas sessionId).length < threshold then s
      else { s with
        summaryBase := Function.update s.summaryBase sessionId
          (some ("\n".intercalate ((s.summaryDeltas sessionId).map SummaryDelta.content)))
        summaryDeltas := Function.update s.summaryDeltas sessionId [] } := by
  rw [maybeCompact, if_neg (by rw [h]; decide)]
  dsimp only
  split <;> rfl

def getSummaryBase (sessionId : String) : Option String := s.summaryBase sessionId

def getSummaryDeltas (sessionId : String) : List (SummaryDelta Ref) := s.summaryDeltas sessionId

end Calls

section Histories
variable {Ref : Type} (stableHash : HashPayload → Ref)

structure Made (Ref : Type) where
  agentId : String
  delta : SummaryDelta Ref

structure History (Ref : Type) where
  state : ContextSummaryState Ref
  made : List (Made Ref) := []

inductive Call where
  | makeDelta (sessionId agentId content : String)
  | maybeCompact (sessionId : String) (threshold : ℤ)

def step (h : History Ref) : Call → History Ref
  | .makeDelta sessionId agentId content =>
    let (delta, state) := makeDelta stableHash h.state sessionId agentId content
    { state, made := h.made ++ [⟨agentId, delta⟩] }
  | .maybeCompact sessionId threshold => { h with state := (maybeCompact h.state sessionId threshold).2 }

def madeContents (made : List (Made Ref)) (sessionId : String) : List (List Char) :=
  (made.filter fun m => m.delta.sessionId = sessionId).map fun m => m.delta.content.toList

def summaryText (s : ContextSummaryState Ref) (sessionId : String) : List Char :=
  ((getSummaryBase s sessionId).getD "").toList ++
    ((getSummaryDeltas s sessionId).map fun d : SummaryDelta Ref => d.content.toList).flatten

/-- Every content is still there, and every delta has a reference of its own. -/
structure Lossless (h : History Ref) : Prop where
  contained : ∀ sessionId, InOrder (madeContents h.made sessionId) (summaryText h.state sessionId)
  distinct : (h.made.map fun m : Made Ref => m.delta.deltaRef).Nodup

/-- A delta does not repeat an earlier one of the session and the agent, in its number and content,
and a compaction finds no text in the base. -/
def Careful (h : History Ref) : Call → Prop
  | .makeDelta sessionId agentId content => ∀ m ∈ h.made, ¬ (m.delta.sessionId = sessionId ∧ m.agentId = agentId ∧
      m.delta.seq = (h.state.summaryDeltas sessionId).length + 1 ∧ m.delta.content = content)
  | .maybeCompact sessionId threshold =>
    (h.state.summaryDeltas sessionId).length < threshold ∨ (h.state.summaryBase sessionId).getD "" = ""

variable {stableHash : HashPayload → Ref}

def Made.payload (m : Made Ref) : HashPayload := .delta m.delta.sessionId m.agentId m.delta.seq m.delta.content

structure Kept (stableHash : HashPayload → Ref) (h : History Ref) : Prop where
  enabled : h.state.enabled = true
  contained : ∀ sessionId, ∃ old,
    madeContents h.made sessionId = old ++ (h.state.summaryDeltas sessionId).map (fun d : SummaryDelta Ref => d.content.toList) ∧
      InOrder old ((h.state.summaryBase sessionId).getD "").toList
  refs : ∀ m ∈ h.made, m.delta.deltaRef = stableHash m.payload
  distinct : (h.made.map Made.payload).Nodup

theorem Kept.lossless (hinj : Function.Injective stableHash) {h : History Ref} (hkept : Kept stableHash h) : Lossless h := by
  constructor
  case contained =>
    intro sessionId
    obtain ⟨old, heq, hold⟩ := hkept.contained sessionId
    rw [heq]
    exact hold.append (inOrder_flatten _)
  case distinct =>
    have hrefs : (h.made.map fun m : Made Ref => m.delta.deltaRef) = (h.made.map Made.payload).map stableHash := by
      rw [List.map_map]
      exact List.map_congr_left hkept.refs
    rw [hrefs]
    exact hkept.distinct.map hinj

theorem madeContents_append (made : List (Made Ref)) (m : Made Ref) (sessionId : String) :
    madeContents (made ++ [m]) sessionId =
      madeContents made sessionId ++ if m.delta.sessionId = sessionId then [m.delta.content.toList] else [] := by
  rw [madeContents, List.filter_append, List.map_append, List.filter_singleton]
  congr 1
  by_cases hid : m.delta.sessionId = sessionId <;> simp [hid]

theorem Kept.makeDelta {h : History Ref} (hkept : Kept stableHash h) {sessionId agentId content : String}
    (hnew : Careful h (.makeDelta sessionId agentId content)) : Kept stableHash (step stableHash h (.makeDelta sessionId agentId content)) := by
  rw [step, makeDelta_enabled stableHash h.state hkept.enabled]
  dsimp only
  constructor
  case enabled => exact hkept.enabled
  case contained =>
    intro id
    obtain ⟨old, heq, hold⟩ := hkept.contained id
    refine ⟨old, ?_, hold⟩
    rw [madeContents_append, heq]
    dsimp only
    by_cases hid : sessionId = id
    · subst hid
      rw [if_pos rfl, Function.update_self, List.map_append, List.append_assoc]
      rfl
    · rw [if_neg hid, Function.update_of_ne (Ne.symm hid), List.append_nil]
  case refs =>
    intro m hm
    rcases List.mem_append.mp hm with hold | hlast
    · exact hkept.refs m hold
    · obtain rfl := List.mem_singleton.mp hlast
      rfl
  case distinct =>
    rw [List.map_append, List.nodup_append]
    refine ⟨hkept.distinct, List.nodup_singleton _, ?_⟩
    intro payload hpayload last hlast heq
    obtain ⟨m, hm, rfl⟩ := List.mem_map.mp hpayload
    obtain rfl := List.mem_singleton.mp hlast
    obtain ⟨hsession, hagent, hseq, hcontent⟩ := HashPayload.delta.inj heq
    exact hnew m hm ⟨hsession, hagent, hseq, hcontent⟩

theorem Kept.maybeCompact {h : History Ref} (hkept : Kept stableHash h) {sessionId : String} {threshold : ℤ}
    (hblank : Careful h (.maybeCompact sessionId threshold)) : Kept stableHash (step stableHash h (.maybeCompact sessionId threshold)) := by
  rw [step, maybeCompact_enabled h.state hkept.enabled]
  split
  · exact hkept
  · next hlong =>
    have hempty : (h.state.summaryBase sessionId).getD "" = "" := hblank.resolve_left hlong
    refine ⟨hkept.enabled, ?_, hkept.refs, hkept.distinct⟩
    intro id
    obtain ⟨old, heq, hold⟩ := hkept.contained id
    dsimp only
    by_cases hid : id = sessionId
    · -- the contents of the deltas move into the base, to which nothing older belongs
      subst hid
      refine ⟨madeContents h.made id, ?_, ?_⟩
      · rw [Function.update_self, List.map_nil, List.append_nil]
      · have hjoined := inOrder_intercalate "\n".toList
          ((h.state.summaryDeltas id).map fun d : SummaryDelta Ref => d.content.toList)
        rw [hempty] at hold
        rw [Function.update_self, Option.getD_some, String.toList_intercalate, List.map_map, heq]
        exact hold.append hjoined
    · rw [Function.update_of_ne hid, Function.update_of_ne hid]
      exact ⟨old, heq, hold⟩

theorem Kept.step {h : History Ref} (hkept : Kept stableHash h) (call : Call) (hcareful : Careful h call) :
    Kept stableHash (step stableHash h call) := by
  cases call with
  | makeDelta sessionId agentId content => exact hkept.makeDelta hcareful
  | maybeCompact sessionId threshold => exact hkept.maybeCompact hcareful

def start : History Ref := { state := { enabled := true } }

theorem kept_start : Kept stableHash start :=
  ⟨rfl, fun _ => ⟨[], rfl, trivial⟩, fun _ hm => (nomatch hm), List.nodup_nil⟩

/-- A run of careful calls loses nothing, at any time. -/
theorem rounds_lossless (hinj : Function.Injective stableHash) (calls : List Call)
    (hcareful : Guarded (step stableHash) Careful start calls) :
    ∀ done rest, calls = done ++ rest → Lossless (run (step stableHash) start done) := by
  intro done rest heq
  rw [heq, guarded_append] at hcareful
  have hkept : Kept stableHash (run (SummaryRounds.step stableHash) start done) :=
    hcareful.1.invariant (fun h call hkept hcall => hkept.step call hcall) kept_start
  exact hkept.lossless hinj

end Histories

def oneRound : List Call := [.makeDelta "s" "a" "x", .makeDelta "s" "a" "y", .maybeCompact "s" 2]

theorem oneRound_lossless : Lossless (run (step id) start oneRound) := by
  refine rounds_lossless Function.injective_id oneRound ?_ oneRound [] rfl
  refine .cons ?_ (.cons ?_ (.cons ?_ (.nil _)))
  · intro m hm
    cases hm
  · intro m hm hsame
    obtain rfl := List.mem_singleton.mp hm
    exact absurd hsame.2.2.1 (by decide)
  · exact .inr rfl

/-- The second compaction drops what the first one joined, and the second delta has the number of
the first. -/
def twoRounds : List Call := [.makeDelta "s" "a" "x", .maybeCompact "s" 1, .makeDelta "s" "a" "y", .maybeCompact "s" 1]

theorem twoRounds_lose : ¬ Lossless (run (step id) start twoRounds) := by
  intro h
  have hcontained := h.contained "s"
  have hmade : ['x'] ∈ madeContents (run (step id) start twoRounds).made "s" := by decide +kernel
  have hx : 'x' ∈ summaryText (run (step id) start twoRounds).state "s" := hcontained.subset hmade List.mem_cons_self
  exact absurd hx (by decide +kernel)

end OpenMinion.SummaryRounds
