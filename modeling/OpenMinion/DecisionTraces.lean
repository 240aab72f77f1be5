import Mathlib.Algebra.BigOperators.Group.List.Basic
import Mathlib.Data.List.Infix
import OpenMinion.JsonSpacedTexts

/-!
# Decision traces

`bounded` halves the decisions of a context trace until the canonical JSON fits in 64 KiB. Nothing else is cut, so a
trace whose other fields are too large stays so.
-/
namespace OpenMinion.DecisionTraces
open JsonRows JsonTexts JsonSpacedTexts

structure ContextDecisionRef where
  segmentId : String
  bucket : String
  action : String
  reasonCode : String
  tokenEstimate : ℕ
  contentDigest : String := ""
  refs : List String := []
  source : String := "typed_schema"

/-- A trace; the report and the result of its persistence are what `model_dump` makes of them. -/
structure ContextDecisionTrace where
  traceVersion : String := "context-decision.v1"
  sessionId : String
  turnId : Option String := none
  llmCallId : Option String := none
  promptContextId : Option String := none
  packVersion : String := ""
  decisions : List ContextDecisionRef := []
  tokenBudgetReport : Option Value := none
  memoryProvenanceRefs : List String := []
  retrievalScoreRefs : List String := []
  summaryCheckpointRefs : List String := []
  memoryBlockRefs : List String := []
  missingSources : List String := []
  persistenceStatus : String := "pending"
  persistenceResult : Value
  truncated : Bool := false
  omittedDecisionCount : ℤ := 0
  omittedDecisionDigest : String := ""

def maxReferences : ℕ := 512

def maxBytes : ℕ := 64 * 1024

def strings (texts : List String) : Value := .list (texts.map Value.str)

/-- `exclude_none`. -/
def optional (key : String) : Option Value → List (String × Value)
  | none => []
  | some v => [(key, v)]

def flag (b : Bool) : Value := sortedValue (.bool b)

/-- `model_dump` of a decision, in the order of the keys. -/
def ContextDecisionRef.dump (d : ContextDecisionRef) : Value := .dict
  [("action", .str d.action), ("bucket", .str d.bucket), ("content_digest", .str d.contentDigest),
    ("reason_code", .str d.reasonCode), ("refs", strings d.refs), ("segment_id", .str d.segmentId),
    ("source", .str d.source), ("token_estimate", intValue d.tokenEstimate)]

/-- `model_dump` of a trace, in the order of the keys. -/
def ContextDecisionTrace.dump (t : ContextDecisionTrace) : List (String × Value) :=
  [("decisions", Value.list (t.decisions.map ContextDecisionRef.dump))] ++
  optional "llm_call_id" (t.llmCallId.map Value.str) ++
  [("memory_block_refs", strings t.memoryBlockRefs), ("memory_provenance_refs", strings t.memoryProvenanceRefs),
    ("missing_sources", strings t.missingSources), ("omitted_decision_count", intValue t.omittedDecisionCount),
    ("omitted_decision_digest", Value.str t.omittedDecisionDigest), ("pack_version", Value.str t.packVersion),
    ("persistence_result", t.persistenceResult), ("persistence_status", Value.str t.persistenceStatus)] ++
  optional "prompt_context_id" (t.promptContextId.map Value.str) ++
  [("retrieval_score_refs", strings t.retrievalScoreRefs), ("session_id", Value.str t.sessionId),
    ("summary_checkpoint_refs", strings t.summaryCheckpointRefs)] ++
  optional "token_budget_report" t.tokenBudgetReport ++
  [("trace_version", Value.str t.traceVersion), ("truncated", flag t.truncated)] ++
  optional "turn_id" (t.turnId.map Value.str)

/-- `_json_bytes`; every character is a byte. -/
def ContextDecisionTrace.jsonBytes (t : ContextDecisionTrace) : List Char := dumps (.dict t.dump)

section Bounds
variable (stableHash : Value → String)

def ContextDecisionTrace.trimDecisionsTo (t : ContextDecisionTrace) (keepCount : ℕ) : ContextDecisionTrace :=
  let omitted := t.decisions.drop keepCount
  if omitted.isEmpty then t
  else { t with
    decisions := t.decisions.take keepCount
    truncated := true
    omittedDecisionCount := t.omittedDecisionCount + omitted.length
    omittedDecisionDigest := stableHash (.dict [("omitted", .list (omitted.map ContextDecisionRef.dump)),
      ("previous_digest", .str t.omittedDecisionDigest)]) }

theorem length_trim_lt {t : ContextDecisionTrace} (h : t.decisions ≠ []) :
    (t.trimDecisionsTo stableHash (t.decisions.length / 2)).decisions.length < t.decisions.length := by
  have hpos : 0 < t.decisions.length := List.length_pos_iff.mpr h
  have hdrop : (t.decisions.drop (t.decisions.length / 2)).isEmpty = false := by
    rw [List.isEmpty_eq_false_iff, Ne, List.drop_eq_nil_iff]
    omega
  rw [ContextDecisionTrace.trimDecisionsTo, hdrop]
  simp only [Bool.false_eq_true, if_false, List.length_take]
  omega

/-- The loop of `bounded`. -/
def ContextDecisionTrace.halve (t : ContextDecisionTrace) : ContextDecisionTrace :=
  if t.jsonBytes.length ≤ maxBytes then t
  else if h : t.decisions = [] then t
  else
    have := length_trim_lt stableHash h
    (t.trimDecisionsTo stableHash (t.decisions.length / 2)).halve
termination_by t.decisions.length

def ContextDecisionTrace.bounded (t : ContextDecisionTrace) : ContextDecisionTrace :=
  (if t.decisions.length > maxReferences then t.trimDecisionsTo stableHash maxReferences else t).halve stableHash

/-- The trace is the other one with fewer decisions, within the bounds. -/
structure IsBounded (t bounded : ContextDecisionTrace) : Prop where
  references : bounded.decisions.length ≤ maxReferences
  bytes : bounded.jsonBytes.length ≤ maxBytes
  leading : bounded.decisions <+: t.decisions
  counted : bounded.decisions.length + bounded.omittedDecisionCount = t.decisions.length + t.omittedDecisionCount

end Bounds

theorem length_dumpsListRest (items : List Value) :
    (dumpsListRest items).length = (items.map fun v => (dumps v).length + 1).sum + 1 := by
  induction items with
  | nil => rfl
  | cons v items ih =>
    rw [dumpsListRest, List.length_cons, List.length_append, ih, List.map_cons, List.sum_cons]
    omega

theorem length_list_cons (v : Value) (items : List Value) :
    (dumps (.list (v :: items))).length = ((v :: items).map fun v => (dumps v).length + 1).sum + 1 := by
  rw [dumps, dumpsList, List.length_cons, List.length_append, length_dumpsListRest, List.map_cons, List.sum_cons]
  omega

def itemLength (item : String × Value) : ℕ := (dumpsStr item.1).length + (dumps item.2).length + 2

theorem length_dumpsDictRest (items : List (String × Value)) :
    (dumpsDictRest items).length = (items.map itemLength).sum + 1 := by
  induction items with
  | nil => rfl
  | cons item items ih =>
    obtain ⟨key, v⟩ := item
    rw [dumpsDictRest, List.length_cons, List.length_append, List.length_cons, List.length_append, ih, List.map_cons, List.sum_cons,
      itemLength]
    dsimp only
    omega

theorem length_dict_cons (item : String × Value) (items : List (String × Value)) :
    (dumps (.dict (item :: items))).length = ((item :: items).map itemLength).sum + 1 := by
  obtain ⟨key, v⟩ := item
  rw [dumps, dumpsDict, List.length_cons, List.length_append, List.length_cons, List.length_append, length_dumpsDictRest, List.map_cons,
    List.sum_cons, itemLength]
  dsimp only
  omega

theorem length_dumpsStr_pos (s : String) : 2 ≤ (dumpsStr s).length := by
  rw [dumpsStr, List.length_append, List.length_cons, List.length_singleton]
  omega

theorem length_list_pos (items : List Value) : 2 ≤ (dumps (.list items)).length := by
  cases items with
  | nil => exact le_rfl
  | cons v items =>
    rw [length_list_cons, List.map_cons, List.sum_cons]
    omega

theorem length_toDigits_le {m n : ℕ} (h : m ≤ n + 1) : (Nat.toDigits 10 m).length ≤ (Nat.toDigits 10 n).length + 1 := by
  have hpos : 0 < (Nat.toDigits 10 n).length := Nat.length_toDigits_pos
  have hn : n < 10 ^ (Nat.toDigits 10 n).length := (Nat.length_toDigits_le_iff (by decide) hpos).mp le_rfl
  rw [Nat.length_toDigits_le_iff (by decide) (Nat.succ_pos _), Nat.pow_succ]
  omega

theorem length_intText_succ (n : ℤ) : (intText (n + 1)).length ≤ (intText n).length + 1 := by
  have hdigits : ∀ {a b : ℤ}, a.natAbs ≤ b.natAbs + 1 →
      (Nat.toDigits 10 a.natAbs).length ≤ (Nat.toDigits 10 b.natAbs).length + 1 := fun h => length_toDigits_le h
  have hstep : (n + 1).natAbs ≤ n.natAbs + 1 := by omega
  have hlength := hdigits hstep
  rw [intText, intText, List.length_append, List.length_append]
  by_cases hneg : n + 1 < 0
  · rw [if_pos hneg, if_pos (by omega)]
    omega
  · rw [if_neg hneg]
    dsimp only [List.length_nil]
    omega

theorem length_intText_add (n : ℤ) (k : ℕ) : (intText (n + k)).length ≤ (intText n).length + k := by
  induction k with
  | zero => simp
  | succ k ih =>
    have hstep := length_intText_succ (n + k)
    rw [Nat.cast_succ, ← add_assoc]
    omega

theorem length_flag (b : Bool) : 4 ≤ (dumps (flag b)).length ∧ (dumps (flag true)).length = 4 := by
  cases b <;> decide +kernel

theorem length_decision (d : ContextDecisionRef) : 67 ≤ (dumps d.dump).length := by
  have hcontent : (dumpsStr "content_digest").length = 16 := by decide +kernel
  have hreason : (dumpsStr "reason_code").length = 13 := by decide +kernel
  have htoken : (dumpsStr "token_estimate").length = 16 := by decide +kernel
  have hrefs := length_list_pos (d.refs.map Value.str)
  have htext : ∀ s : String, 2 ≤ (dumps (.str s)).length := length_dumpsStr_pos
  have haction := length_dumpsStr_pos "action"
  have hbucket := length_dumpsStr_pos "bucket"
  have hrefsKey := length_dumpsStr_pos "refs"
  have hsegment := length_dumpsStr_pos "segment_id"
  have hsource := length_dumpsStr_pos "source"
  have h₁ := htext d.action
  have h₂ := htext d.bucket
  have h₃ := htext d.contentDigest
  have h₄ := htext d.reasonCode
  have h₅ := htext d.segmentId
  have h₆ := htext d.source
  rw [ContextDecisionRef.dump, length_dict_cons]
  simp only [List.map_cons, List.map_nil, List.sum_cons, List.sum_nil, itemLength, strings]
  omega

def otherBytes (t : ContextDecisionTrace) : ℕ :=
  ({ t with
    decisions := []
    truncated := true
    omittedDecisionCount := 0
    omittedDecisionDigest := "" } : ContextDecisionTrace).jsonBytes.length

def cutBytes (t : ContextDecisionTrace) : ℕ :=
  (dumps (.list (t.decisions.map ContextDecisionRef.dump))).length + (intText t.omittedDecisionCount).length +
    (dumpsStr t.omittedDecisionDigest).length + (dumps (flag t.truncated)).length

theorem length_jsonBytes (t : ContextDecisionTrace) : t.jsonBytes.length + 9 = otherBytes t + cutBytes t := by
  have hflag := (length_flag true).2
  have hempty : (dumpsStr "").length = 2 := by decide
  have hzero : (intText 0).length = 1 := by decide
  have hint : ∀ n, dumps (intValue n) = intText n := fun _ => rfl
  have hstr : ∀ s, dumps (.str s) = dumpsStr s := fun _ => rfl
  have hnil : (dumps (.list [])).length = 2 := rfl
  rw [otherBytes, cutBytes, ContextDecisionTrace.jsonBytes, ContextDecisionTrace.jsonBytes, ContextDecisionTrace.dump,
    ContextDecisionTrace.dump]
  simp only [List.cons_append, List.nil_append, length_dict_cons, List.map_cons, List.map_append, List.map_nil, List.sum_cons,
    List.sum_append, List.sum_nil, itemLength, hint, hstr, hflag, hempty, hzero, hnil]
  omega

theorem length_decisions (decisions : List ContextDecisionRef) :
    68 * decisions.length + 1 ≤ (dumps (.list (decisions.map ContextDecisionRef.dump))).length := by
  have hsum : ∀ ds : List ContextDecisionRef,
      68 * ds.length ≤ ((ds.map ContextDecisionRef.dump).map fun v => (dumps v).length + 1).sum := by
    intro ds
    induction ds with
    | nil => exact le_rfl
    | cons d ds ih =>
      have hone := length_decision d
      rw [List.map_cons, List.map_cons, List.sum_cons, List.length_cons]
      omega
  cases decisions with
  | nil => exact Nat.le_succ 1
  | cons d ds =>
    rw [List.map_cons, length_list_cons, ← List.map_cons]
    exact Nat.succ_le_succ (hsum (d :: ds))

section Cuts
variable {stableHash : Value → String} {t r e : ContextDecisionTrace}

/-- The second trace is the first one, or it has fewer decisions, with a count and a digest of the rest. -/
structure Cut (t r : ContextDecisionTrace) : Prop where
  other : otherBytes r = otherBytes t
  leading : r.decisions <+: t.decisions
  counted : r.decisions.length + r.omittedDecisionCount = t.decisions.length + t.omittedDecisionCount
  digested : r = t ∨ (r.decisions.length < t.decisions.length ∧ r.truncated = true ∧ (dumpsStr r.omittedDecisionDigest).length = 66)

theorem Cut.refl (t : ContextDecisionTrace) : Cut t t := ⟨rfl, List.prefix_rfl, rfl, .inl rfl⟩

theorem trim_decisions (t : ContextDecisionTrace) (keepCount : ℕ) :
    (t.trimDecisionsTo stableHash keepCount).decisions = t.decisions.take keepCount := by
  rw [ContextDecisionTrace.trimDecisionsTo]
  split
  · next hnone =>
    rw [List.isEmpty_iff, List.drop_eq_nil_iff] at hnone
    exact (List.take_of_length_le hnone).symm
  · rfl

theorem Cut.trim (hhash : ∀ v, (dumpsStr (stableHash v)).length = 66) (h : Cut t r) (keepCount : ℕ) :
    Cut t (r.trimDecisionsTo stableHash keepCount) := by
  rw [ContextDecisionTrace.trimDecisionsTo]
  split
  · exact h
  · next hsome =>
    rw [List.isEmpty_iff, List.drop_eq_nil_iff, not_le] at hsome
    have hlength : (r.decisions.take keepCount).length = keepCount := by
      rw [List.length_take]
      omega
    refine ⟨h.other, (List.take_prefix keepCount r.decisions).trans h.leading, ?_, .inr ⟨?_, rfl, hhash _⟩⟩
    · dsimp only
      rw [hlength, List.length_drop, Nat.cast_sub hsome.le, ← h.counted]
      omega
    · have hle := h.leading.length_le
      dsimp only
      omega

theorem Cut.shortest (hr : Cut t r) (he : Cut t e) (hempty : e.decisions = []) : e.jsonBytes.length ≤ r.jsonBytes.length := by
  have hsize := length_jsonBytes e
  have hsize' := length_jsonBytes r
  have hother := he.other.trans hr.other.symm
  have hcut : cutBytes e ≤ cutBytes r := by
    have hcounted := he.counted
    rw [hempty, List.length_nil, Nat.cast_zero, zero_add] at hcounted
    have hkept := length_decisions r.decisions
    have hdigits := length_intText_add r.omittedDecisionCount r.decisions.length
    have hcount : r.omittedDecisionCount + r.decisions.length = e.omittedDecisionCount := by
      rw [hcounted, ← hr.counted, add_comm]
    rw [hcount] at hdigits
    have hnil : (dumps (.list (([] : List ContextDecisionRef).map ContextDecisionRef.dump))).length = 2 := rfl
    have hflag := length_flag r.truncated
    have hdigest := length_dumpsStr_pos r.omittedDecisionDigest
    rcases he.digested with rfl | ⟨hfewer, htruncated, hlength⟩
    · rcases hr.digested with rfl | ⟨hless, -⟩
      · exact le_rfl
      · rw [hempty] at hless
        exact absurd hless (Nat.not_lt_zero _)
    · rw [cutBytes, cutBytes, hempty, hnil, hlength, htruncated, hflag.2]
      rcases hr.digested with rfl | ⟨-, htruncated', hlength'⟩
      · rw [hempty, List.length_nil] at hfewer
        omega
      · rw [hlength', htruncated', hflag.2]
        have hlist := length_list_pos (r.decisions.map ContextDecisionRef.dump)
        omega
  omega

theorem Cut.halve (hhash : ∀ v, (dumpsStr (stableHash v)).length = 66) (h : Cut t r) :
    Cut t (r.halve stableHash) ∧ (r.halve stableHash).decisions.length ≤ r.decisions.length ∧
      ((r.halve stableHash).jsonBytes.length ≤ maxBytes ∨ (r.halve stableHash).decisions = []) := by
  induction hlength : r.decisions.length using Nat.strong_induction_on generalizing r with
  | h n ih =>
    subst hlength
    rw [ContextDecisionTrace.halve]
    split
    · next hfits => exact ⟨h, le_rfl, .inl hfits⟩
    · split
      · next hnone => exact ⟨h, le_rfl, .inr hnone⟩
      · next hsome =>
        have hlt := length_trim_lt stableHash hsome
        obtain ⟨hcut, hle, hend⟩ := ih _ hlt (h.trim hhash (r.decisions.length / 2)) rfl
        exact ⟨hcut, hle.trans hlt.le, hend⟩

theorem Cut.bounded (hhash : ∀ v, (dumpsStr (stableHash v)).length = 66) (t : ContextDecisionTrace) :
    Cut t (t.bounded stableHash) ∧ (t.bounded stableHash).decisions.length ≤ maxReferences ∧
      ((t.bounded stableHash).jsonBytes.length ≤ maxBytes ∨ (t.bounded stableHash).decisions = []) := by
  rw [ContextDecisionTrace.bounded]
  split
  · obtain ⟨hcut, hle, hend⟩ := ((Cut.refl t).trim hhash maxReferences).halve hhash
    rw [trim_decisions, List.length_take] at hle
    exact ⟨hcut, hle.trans (min_le_left _ _), hend⟩
  · next hfew =>
    obtain ⟨hcut, hle, hend⟩ := (Cut.refl t).halve hhash
    exact ⟨hcut, hle.trans (not_lt.mp hfew), hend⟩

/-- The trace that `bounded` returns is bounded exactly when the trace fits without its decisions. -/
theorem bounded_iff (hhash : ∀ v, (dumpsStr (stableHash v)).length = 66) (t : ContextDecisionTrace) :
    IsBounded t (t.bounded stableHash) ↔ (t.trimDecisionsTo stableHash 0).jsonBytes.length ≤ maxBytes := by
  have hemptied : Cut t (t.trimDecisionsTo stableHash 0) := (Cut.refl t).trim hhash 0
  have hnone : (t.trimDecisionsTo stableHash 0).decisions = [] := trim_decisions t 0
  obtain ⟨hcut, hreferences, hend⟩ := Cut.bounded hhash t
  constructor
  · intro h
    exact (hcut.shortest hemptied hnone).trans h.bytes
  · intro hfits
    refine ⟨hreferences, ?_, hcut.leading, hcut.counted⟩
    rcases hend with hbytes | hempty
    · exact hbytes
    · exact (hemptied.shortest hcut hempty).trans hfits

end Cuts

def zeroHash (_ : Value) : String := String.ofList (List.replicate 64 '0')

theorem length_zeroHash (v : Value) : (dumpsStr (zeroHash v)).length = 66 := by
  have hzeros : ('"' :: escape (List.replicate 64 '0') ++ ['"']).length = 66 := by decide +kernel
  unfold zeroHash dumpsStr
  rw [String.toList_ofList]
  exact hzeros

def oneDecision : ContextDecisionTrace where
  sessionId := "s"
  persistenceResult := .dict []
  decisions := [{ segmentId := "a", bucket := "memory", action := "included", reasonCode := "selected", tokenEstimate := 1 }]

theorem bounded_iff_oneDecision : IsBounded oneDecision (oneDecision.bounded zeroHash) ↔
    (oneDecision.trimDecisionsTo zeroHash 0).jsonBytes.length ≤ maxBytes :=
  bounded_iff length_zeroHash oneDecision

def manyReferences : ContextDecisionTrace where
  sessionId := "s"
  persistenceResult := .dict []
  retrievalScoreRefs := List.replicate 20000 "r"

theorem length_references (t : ContextDecisionTrace) : (dumps (strings t.retrievalScoreRefs)).length ≤ t.jsonBytes.length := by
  rw [ContextDecisionTrace.jsonBytes, ContextDecisionTrace.dump]
  simp only [List.cons_append, List.nil_append, length_dict_cons, List.map_cons, List.map_append, List.map_nil, List.sum_cons,
    List.sum_append, List.sum_nil, itemLength]
  omega

theorem length_replicate (n : ℕ) (text : String) :
    (dumps (strings (List.replicate (n + 1) text))).length = (n + 1) * ((dumpsStr text).length + 1) + 1 := by
  rw [strings, List.map_replicate, List.replicate_succ, length_list_cons, ← List.replicate_succ, List.map_replicate, List.sum_replicate,
    smul_eq_mul]
  rfl

theorem manyReferences_unbounded : ¬ IsBounded manyReferences (manyReferences.bounded zeroHash) := by
  intro h
  have hlist : (dumps (strings manyReferences.retrievalScoreRefs)).length = 20000 * 4 + 1 := by
    exact length_replicate 19999 "r"
  have hsame : manyReferences.bounded zeroHash = manyReferences := by
    rw [ContextDecisionTrace.bounded, if_neg (by decide), ContextDecisionTrace.halve]
    split
    · rfl
    · exact dif_pos rfl
  have hbytes := h.bytes
  have hle := length_references manyReferences
  rw [hsame, maxBytes] at hbytes
  omega

end OpenMinion.DecisionTraces
