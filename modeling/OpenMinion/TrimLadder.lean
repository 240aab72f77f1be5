import Mathlib.Algebra.BigOperators.Group.List.Basic
import OpenMinion.EvidencePacking
import OpenMinion.ListPositions
import OpenMinion.SegmentMessages

/-!
# The trim ladder

`apply_trim_ladder` empties segments of every bucket that exceeds its own cap, and then bucket after bucket while the
total, which is kept by subtraction, exceeds the total cap.
-/
namespace OpenMinion.TrimLadder
open EvidencePacking ListPositions SegmentMessages

structure PackSegment extends ContextSegment where
  tokenEstimate : ℕ
  contentHash : String := ""
  isArtifactPreview : Bool := false
  pinned : Bool := false
  deriving DecidableEq

def trimOrder : List SegmentBucket := [.evidenceRefs, .retrieval, .recentWindow, .summaries]

def pinnedBuckets : List SegmentBucket :=
  [.staticPrefix, .missionSnapshot, .taskDigest, .conversationSummary, .activePlan, .trailerFeedback, .turnInput]

/-- `make_segment`, for what the assembly gives it; the hash is that of `_content_hash`. -/
def makeSegment (contentHash : String → String) (segId : String) (bucket : SegmentBucket) (content : String) (role : MessageRole)
    (pinned : Bool) : PackSegment :=
  let hash := if content = "" then "" else contentHash content
  { id := segId
    bucket
    role
    content
    isCacheable := bucket = .staticPrefix
    cacheKey := if bucket ≠ .staticPrefix ∨ hash = "" then "" else "static_prefix:" ++ hash
    cacheInvalidationRefs := if bucket ≠ .staticPrefix ∨ hash = "" then [] else ["content_hash:" ++ hash]
    tokenEstimate := if content = "" then 0 else estimateTokens content
    contentHash := hash
    pinned := pinned || bucket ∈ pinnedBuckets }

def PackSegment.filled (s : PackSegment) : Bool := !isBlank s.toContextSegment

def tokensOf (segments : List PackSegment) : ℕ :=
  ((segments.filter PackSegment.filled).map fun s : PackSegment => estimateTokens s.content).sum

structure TrimAction where
  action : String
  reasonCode : String
  segmentIds : List String
  bucket : Option SegmentBucket
  tokensSaved : ℕ
  deriving DecidableEq

structure PackingDecisionLog where
  actions : List TrimAction := []
  totalTokensSaved : ℕ := 0
  deriving DecidableEq

def PackingDecisionLog.append (log : PackingDecisionLog) (action : TrimAction) : PackingDecisionLog where
  actions := log.actions ++ [action]
  totalTokensSaved := log.totalTokensSaved + action.tokensSaved

structure Ladder where
  segments : List PackSegment
  totalTokens : ℤ
  decisionLog : PackingDecisionLog
  warnings : List String

def bucketUsedTokens (l : Ladder) (name : SegmentBucket) : ℕ :=
  tokensOf (l.segments.filter fun s : PackSegment => s.bucket = name)

def droppable (name : SegmentBucket) (s : PackSegment) : Bool := s.bucket = name && s.filled && !s.pinned

/-- `model_copy(update={"content": "", "refs": []})`. -/
def emptied (s : PackSegment) : PackSegment := { s with content := "", refs := [] }

/-- The candidate that is dropped: the first one of the recent window, the last one of another bucket. -/
def candidate (name : SegmentBucket) (segments : List PackSegment) : Option (ℕ × PackSegment) :=
  if name = .recentWindow then locate (droppable name) segments
  else (locate (droppable name) segments.reverse).map fun found => (segments.length - 1 - found.1, found.2)

def dropOneFromBucket (name : SegmentBucket) (reasonCode : String) (l : Ladder) : ℕ × Ladder :=
  match candidate name l.segments with
  | none => (0, l)
  | some (idx, segment) =>
    let saved := estimateTokens segment.content
    (saved,
      { segments := l.segments.set idx (emptied segment)
        totalTokens := l.totalTokens
        decisionLog := l.decisionLog.append
          { action := "drop_segment", reasonCode, segmentIds := [segment.id], bucket := some name, tokensSaved := saved }
        warnings := l.warnings ++ ["drop_segment:" ++ segment.id] })

/-- The loop that drops from a bucket while `exceeds` holds; every round that goes on empties a
segment, so as many rounds as there are segments are enough. -/
def trimWhile (exceeds : Ladder → Bool) (name : SegmentBucket) (reasonCode : String) : ℕ → Ladder → Ladder
  | 0, l => l
  | rounds + 1, l =>
    if exceeds l then
      let (saved, dropped) := dropOneFromBucket name reasonCode l
      if saved = 0 then dropped
      else trimWhile exceeds name reasonCode rounds { dropped with totalTokens := dropped.totalTokens - saved }
    else l

def trimToBucketCap (l : Ladder) (cap : SegmentBucket × ℤ) : Ladder :=
  if cap.1 ∈ pinnedBuckets then l
  else trimWhile (fun l => (bucketUsedTokens l cap.1 : ℤ) > cap.2) cap.1 "bucket_cap" l.segments.length l

def trimToTotalCap (totalCap : ℤ) (l : Ladder) (name : SegmentBucket) : Ladder :=
  if name ∈ pinnedBuckets then l
  else trimWhile (fun l => l.totalTokens > totalCap) name "over_budget" l.segments.length l

def applyTrimLadder (segments : List PackSegment) (totalCap : ℤ) (bucketCaps : List (SegmentBucket × ℤ))
    (decisionLog : PackingDecisionLog) (warnings : List String) : List PackSegment × PackingDecisionLog × List String :=
  let counted : Ladder := { segments, totalTokens := tokensOf segments, decisionLog, warnings }
  let capped := bucketCaps.foldl trimToBucketCap counted
  let trimmed := trimOrder.foldl (trimToTotalCap totalCap) capped
  (trimmed.segments, trimmed.decisionLog,
    if trimmed.totalTokens > totalCap then
      trimmed.warnings ++ ["budget_exceeded:remaining=" ++ toString (trimmed.totalTokens - totalCap) ++ "tokens"]
    else trimmed.warnings)

/-- A segment is kept as it is, or emptied where it is not pinned. -/
def Trimmed (s s' : PackSegment) : Prop := s' = s ∨ s.pinned = false ∧ s.filled = true ∧ s' = emptied s

theorem Trimmed.refl (s : PackSegment) : Trimmed s s := .inl rfl

def Exhausted (name : SegmentBucket) (segments : List PackSegment) : Prop := ∀ s ∈ segments, droppable name s = false

theorem filled_emptied (s : PackSegment) : (emptied s).filled = false := by
  have hempty : PythonText.strip "" = "" := by decide +kernel
  rw [PackSegment.filled, isBlank, emptied]
  dsimp only
  rw [hempty]
  rfl

theorem droppable_emptied (name : SegmentBucket) (s : PackSegment) : droppable name (emptied s) = false := by
  rw [droppable, filled_emptied, Bool.and_false, Bool.false_and]

theorem Trimmed.trans {s s' s'' : PackSegment} (h : Trimmed s s') (h' : Trimmed s' s'') : Trimmed s s'' := by
  rcases h with rfl | ⟨hpinned, hfilled, rfl⟩
  · exact h'
  · rcases h' with rfl | ⟨-, hempty, -⟩
    · exact .inr ⟨hpinned, hfilled, rfl⟩
    · rw [filled_emptied] at hempty
      cases hempty

theorem Trimmed.droppable_eq_false {name : SegmentBucket} {s s' : PackSegment} (h : Trimmed s s') (hs : droppable name s = false) :
    droppable name s' = false := by
  rcases h with rfl | ⟨-, -, rfl⟩
  · exact hs
  · exact droppable_emptied name s

theorem Exhausted.trimmed {name : SegmentBucket} {segments segments' : List PackSegment} (h : Exhausted name segments)
    (htrimmed : List.Forall₂ Trimmed segments segments') : Exhausted name segments' := by
  induction htrimmed with
  | nil => exact h
  | cons hs _ ih =>
    have hrest := ih fun t ht => h t (List.mem_cons_of_mem _ ht)
    intro t ht
    rcases List.mem_cons.mp ht with rfl | ht
    · exact hs.droppable_eq_false (h _ List.mem_cons_self)
    · exact hrest t ht

variable {name : SegmentBucket} {reasonCode : String} {l l' : Ladder} {segments : List PackSegment}

theorem candidate_eq_some {idx : ℕ} {s : PackSegment} (h : candidate name segments = some (idx, s)) :
    ∃ front back, segments = front ++ s :: back ∧ front.length = idx ∧ droppable name s = true := by
  rw [candidate] at h
  split at h
  · obtain ⟨front, back, hsplit, hidx, hs, -⟩ := locate_eq_some h
    exact ⟨front, back, hsplit, hidx, hs⟩
  · obtain ⟨⟨i, t⟩, hfound, heq⟩ := Option.map_eq_some_iff.mp h
    cases heq
    obtain ⟨front, back, hsplit, rfl, hs, -⟩ := locate_eq_some hfound
    refine ⟨back.reverse, front.reverse, ?_, ?_, hs⟩
    · rw [← segments.reverse_reverse, hsplit, List.reverse_append, List.reverse_cons, List.append_assoc]
      rfl
    · have hlength := congrArg List.length hsplit
      rw [List.length_reverse, List.length_append, List.length_cons] at hlength
      rw [List.length_reverse, hlength]
      omega

theorem candidate_eq_none (h : candidate name segments = none) : Exhausted name segments := by
  rw [candidate] at h
  split at h
  · exact locate_eq_none.mp h
  · intro s hs
    exact locate_eq_none.mp (Option.map_eq_none_iff.mp h) s (List.mem_reverse.mpr hs)

theorem tokensOf_append (segments more : List PackSegment) : tokensOf (segments ++ more) = tokensOf segments + tokensOf more := by
  rw [tokensOf, List.filter_append, List.map_append, List.sum_append]
  rfl

theorem tokensOf_cons (s : PackSegment) (segments : List PackSegment) :
    tokensOf (s :: segments) = (if s.filled then estimateTokens s.content else 0) + tokensOf segments := by
  rw [tokensOf, List.filter_cons]
  split
  · rw [List.map_cons, List.sum_cons]
    rfl
  · rw [Nat.zero_add]
    rfl

theorem forall₂_trimmed_refl (segments : List PackSegment) : List.Forall₂ Trimmed segments segments :=
  List.forall₂_same.mpr fun s _ => Trimmed.refl s

theorem forall₂_trimmed_trans {before between after : List PackSegment} (h : List.Forall₂ Trimmed before between)
    (h' : List.Forall₂ Trimmed between after) : List.Forall₂ Trimmed before after := by
  induction h generalizing after with
  | nil => exact h'
  | cons hs _ ih =>
    cases h' with
    | cons hs' hrest => exact .cons (hs.trans hs') (ih hrest)

/-- Only segments that are not pinned are emptied, and the running total stays as far from the real one as it was. -/
structure Trims (l l' : Ladder) : Prop where
  trimmed : List.Forall₂ Trimmed l.segments l'.segments
  counted : l'.totalTokens - tokensOf l'.segments = l.totalTokens - tokensOf l.segments

theorem Trims.refl (l : Ladder) : Trims l l := ⟨forall₂_trimmed_refl _, rfl⟩

theorem Trims.trans {l'' : Ladder} (h : Trims l l') (h' : Trims l' l'') : Trims l l'' :=
  ⟨forall₂_trimmed_trans h.trimmed h'.trimmed, h'.counted.trans h.counted⟩

/-- One drop: nothing is saved and nothing is left, or a candidate is emptied and its estimate is saved. -/
theorem dropOneFromBucket_spec (name : SegmentBucket) (reasonCode : String) (l : Ladder) :
    (dropOneFromBucket name reasonCode l = (0, l) ∧ Exhausted name l.segments) ∨
      ∃ saved dropped, dropOneFromBucket name reasonCode l = (saved, dropped) ∧ saved ≠ 0 ∧
        Trims l { dropped with totalTokens := dropped.totalTokens - saved } ∧
        dropped.segments.countP (droppable name) + 1 = l.segments.countP (droppable name) := by
  rw [dropOneFromBucket]
  cases hcandidate : candidate name l.segments with
  | none => exact .inl ⟨rfl, candidate_eq_none hcandidate⟩
  | some found =>
    obtain ⟨idx, s⟩ := found
    obtain ⟨front, back, hsplit, hidx, hs⟩ := candidate_eq_some hcandidate
    have hset : l.segments.set idx (emptied s) = front ++ emptied s :: back := by
      rw [hsplit]
      exact set_at (emptied s) hidx
    obtain ⟨⟨-, hfilled⟩, hpinned⟩ : (s.bucket = name ∧ s.filled = true) ∧ s.pinned = false := by
      rw [droppable, Bool.and_eq_true, Bool.and_eq_true, decide_eq_true_eq, Bool.not_eq_true'] at hs
      exact hs
    have hsaved : 1 ≤ estimateTokens s.content := le_max_left _ _
    refine .inr ⟨_, _, rfl, by omega, ⟨?_, ?_⟩, ?_⟩
    · dsimp only
      rw [hset, hsplit]
      exact List.rel_append (forall₂_trimmed_refl front) (.cons (.inr ⟨hpinned, hfilled, rfl⟩) (forall₂_trimmed_refl back))
    · dsimp only
      rw [hset, hsplit, tokensOf_append, tokensOf_append, tokensOf_cons, tokensOf_cons, filled_emptied, if_neg Bool.false_ne_true,
        if_pos hfilled]
      push_cast
      omega
    · dsimp only
      rw [hset, hsplit, List.countP_append, List.countP_append, List.countP_cons, List.countP_cons, droppable_emptied, hs,
        if_neg Bool.false_ne_true, if_pos rfl]
      omega

theorem trimWhile_spec {exceeds : Ladder → Bool} {rounds : ℕ} (hrounds : l.segments.countP (droppable name) ≤ rounds) :
    Trims l (trimWhile exceeds name reasonCode rounds l) ∧
      (exceeds (trimWhile exceeds name reasonCode rounds l) = true →
        Exhausted name (trimWhile exceeds name reasonCode rounds l).segments) := by
  induction rounds generalizing l with
  | zero =>
    refine ⟨Trims.refl l, fun _ s hs => ?_⟩
    have hnone := List.countP_eq_zero.mp (Nat.le_zero.mp hrounds) s hs
    exact Bool.eq_false_iff.mpr hnone
  | succ rounds ih =>
    rw [trimWhile]
    split
    · rcases dropOneFromBucket_spec name reasonCode l with ⟨hdrop, hexhausted⟩ | ⟨saved, dropped, hdrop, hsaved, htrims, hcount⟩
      · rw [hdrop]
        exact ⟨Trims.refl l, fun _ => hexhausted⟩
      · rw [hdrop]
        dsimp only
        rw [if_neg hsaved]
        have hrest := @ih { dropped with totalTokens := dropped.totalTokens - saved } (by dsimp only; omega)
        exact ⟨htrims.trans hrest.1, hrest.2⟩
    · next hfits => exact ⟨Trims.refl l, fun hexceeds => absurd hexceeds hfits⟩

theorem trimToBucketCap_trims (l : Ladder) (cap : SegmentBucket × ℤ) : Trims l (trimToBucketCap l cap) := by
  rw [trimToBucketCap]
  split
  · exact Trims.refl l
  · exact (trimWhile_spec List.countP_le_length).1

theorem foldl_trimToBucketCap (l : Ladder) (bucketCaps : List (SegmentBucket × ℤ)) : Trims l (bucketCaps.foldl trimToBucketCap l) := by
  induction bucketCaps generalizing l with
  | nil => exact Trims.refl l
  | cons cap bucketCaps ih => exact (trimToBucketCap_trims l cap).trans (ih _)

theorem trimToTotalCap_spec {totalCap : ℤ} (l : Ladder) (hname : name ∉ pinnedBuckets) :
    Trims l (trimToTotalCap totalCap l name) ∧
      ((trimToTotalCap totalCap l name).totalTokens > totalCap → Exhausted name (trimToTotalCap totalCap l name).segments) := by
  rw [trimToTotalCap, if_neg hname]
  obtain ⟨htrims, hexhausted⟩ :=
    @trimWhile_spec name "over_budget" l (fun l => l.totalTokens > totalCap) l.segments.length List.countP_le_length
  exact ⟨htrims, fun htotal => hexhausted (decide_eq_true htotal)⟩

theorem Trims.totalTokens_le (h : Trims l l') : l'.totalTokens ≤ l.totalTokens := by
  have htokens : tokensOf l'.segments ≤ tokensOf l.segments := by
    have hall := h.trimmed
    revert hall
    generalize l.segments = before
    generalize l'.segments = after
    intro hall
    induction hall with
    | nil => exact le_rfl
    | cons hs _ ih =>
      rw [tokensOf_cons, tokensOf_cons]
      rcases hs with rfl | ⟨-, -, rfl⟩
      · omega
      · rw [filled_emptied, if_neg Bool.false_ne_true]
        omega
  have hcounted := h.counted
  omega

theorem foldl_trimToTotalCap {totalCap : ℤ} (l : Ladder) {names : List SegmentBucket} (hnames : ∀ name ∈ names, name ∉ pinnedBuckets) :
    Trims l (names.foldl (trimToTotalCap totalCap) l) ∧
      ((names.foldl (trimToTotalCap totalCap) l).totalTokens > totalCap →
        ∀ name ∈ names, Exhausted name (names.foldl (trimToTotalCap totalCap) l).segments) := by
  induction names generalizing l with
  | nil => exact ⟨Trims.refl l, fun _ name hname => nomatch hname⟩
  | cons first names ih =>
    obtain ⟨hfirst, hexhausted⟩ := @trimToTotalCap_spec first totalCap l (hnames first List.mem_cons_self)
    obtain ⟨hrest, hothers⟩ := ih (trimToTotalCap totalCap l first) fun name hname => hnames name (List.mem_cons_of_mem _ hname)
    refine ⟨hfirst.trans hrest, ?_⟩
    intro htotal name hname
    rcases List.mem_cons.mp hname with rfl | hname
    · exact (hexhausted (htotal.trans_le hrest.totalTokens_le)).trimmed hrest.trimmed
    · exact hothers htotal name hname

/-- The ladder empties only segments that are not pinned, and leaves a total above its cap only where
nothing is left to drop. -/
theorem applyTrimLadder_spec (segments : List PackSegment) (totalCap : ℤ) (bucketCaps : List (SegmentBucket × ℤ))
    (decisionLog : PackingDecisionLog) (warnings : List String) :
    List.Forall₂ Trimmed segments (applyTrimLadder segments totalCap bucketCaps decisionLog warnings).1 ∧
      (totalCap < tokensOf (applyTrimLadder segments totalCap bucketCaps decisionLog warnings).1 →
        ∀ name ∈ trimOrder, Exhausted name (applyTrimLadder segments totalCap bucketCaps decisionLog warnings).1) := by
  rw [applyTrimLadder]
  dsimp only
  generalize hcounted : ({ segments, totalTokens := tokensOf segments, decisionLog, warnings } : Ladder) = counted
  have hcapped := foldl_trimToBucketCap counted bucketCaps
  obtain ⟨htrimmed, hexhausted⟩ :=
    @foldl_trimToTotalCap totalCap (bucketCaps.foldl trimToBucketCap counted) trimOrder (by decide)
  have hall := hcapped.trans htrimmed
  have htotal : (trimOrder.foldl (trimToTotalCap totalCap) (bucketCaps.foldl trimToBucketCap counted)).totalTokens =
      tokensOf (trimOrder.foldl (trimToTotalCap totalCap) (bucketCaps.foldl trimToBucketCap counted)).segments := by
    have hdifference := hall.counted
    rw [← hcounted] at hdifference ⊢
    dsimp only at hdifference
    omega
  refine ⟨?_, ?_⟩
  · have hsegments := hall.trimmed
    rw [← hcounted] at hsegments ⊢
    exact hsegments
  · intro hexceeds
    rw [← htotal] at hexceeds
    exact hexhausted hexceeds

end OpenMinion.TrimLadder
