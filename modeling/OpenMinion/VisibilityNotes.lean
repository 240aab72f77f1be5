import Mathlib.Data.List.Sort
import OpenMinion.TrimLadder

/-!
# Visibility notes

`trim_segments_for_pack` runs the trim ladder and then puts a pinned note after the first segment of the static prefix.
The note is not weighed against the total cap.
-/
namespace OpenMinion.VisibilityNotes
open EvidencePacking JsonValues ListPositions PythonText SegmentMessages TrimLadder

/-- What is taken from outside: the hash of `_content_hash`, and `int` of a value, if it does not raise. -/
structure Platform where
  contentHash : String → String
  readInt : Json → Option ℤ

def visibilityBuckets : List SegmentBucket := [.retrieval, .evidenceRefs, .recentWindow]

def bucketLabel : SegmentBucket → String
  | .retrieval => "retrieval"
  | .evidenceRefs => "evidence"
  | .recentWindow => "recent window"
  | .staticPrefix => "static_prefix"
  | .missionSnapshot => "mission_snapshot"
  | .budgetTelemetry => "budget_telemetry"
  | .taskDigest => "task_digest"
  | .summaries => "summaries"
  | .conversationSummary => "conversation_summary"
  | .activePlan => "active_plan"
  | .trailerFeedback => "trailer_feedback"
  | .selfAwareness => "self_awareness"
  | .memory => "memory"
  | .turnInput => "turn_input"

def statedDrops (readInt : Json → Option ℤ) (stats : Dict) : ℕ :=
  if Dict.has stats "dropped" then ((readInt (Dict.get stats "dropped")).getD 0).toNat else 0

def actionDrops (bucket : SegmentBucket) (action : TrimAction) : ℕ :=
  if action.action = "drop_segment" ∧ action.bucket = some bucket then max 1 action.segmentIds.length else 0

/-- `context_drop_visibility_counts`. -/
def dropVisibilityCounts (readInt : Json → Option ℤ) (decisionLog : PackingDecisionLog) (bucketStats : SegmentBucket → Dict) :
    List (SegmentBucket × ℕ) :=
  let counts : List (SegmentBucket × ℕ) := visibilityBuckets.map fun bucket =>
    (bucket, statedDrops readInt (bucketStats bucket) + (decisionLog.actions.map (actionDrops bucket)).sum)
  counts.filter fun counted => 0 < counted.2

def noteMaxChars : ℕ := 360

def countText (item : String × ℕ) : String :=
  toString item.2 ++ " " ++ item.1 ++ " " ++ if item.2 = 1 then "candidate" else "candidates"

def itemBefore (a b : String × ℕ) : Prop := a.1 < b.1 ∨ a.1 = b.1 ∧ a.2 ≤ b.2

instance : DecidableRel itemBefore := fun a b => inferInstanceAs (Decidable (a.1 < b.1 ∨ a.1 = b.1 ∧ a.2 ≤ b.2))

/-- `render_context_drop_visibility_note`. -/
def renderNote (dropCounts : List (SegmentBucket × ℕ)) : String :=
  let items := (dropCounts.filter fun counted => 0 < counted.2).map fun counted => (bucketLabel counted.1, counted.2)
  if items = [] then ""
  else
    let parts := (items.insertionSort itemBefore).map countText
    let countsText := match parts with
      | [part] => part
      | parts => ", ".intercalate parts.dropLast ++ ", and " ++ parts.getLast?.getD ""
    let verb := if items.map Prod.snd = [1] then "was" else "were"
    let note := "[context budget: " ++ countsText ++ " " ++ verb ++ " not included due to budget.]"
    String.ofList ((note.toList.take noteMaxChars).rdropWhile isSpace)

def noteSegment (contentHash : String → String) (note : String) : PackSegment :=
  makeSegment contentHash "context_drop_visibility" .staticPrefix note .system true

/-- `inject_context_drop_visibility_note`. -/
def injectNote (contentHash : String → String) (segments : List PackSegment) (dropCounts : List (SegmentBucket × ℕ)) :
    List PackSegment :=
  let note := renderNote dropCounts
  if note = "" then segments
  else
    let insertAt := match locate (fun s : PackSegment => s.bucket = .staticPrefix) segments with
      | some (idx, _) => idx + 1
      | none => 0
    segments.take insertAt ++ noteSegment contentHash note :: segments.drop insertAt

def trimSegmentsForPack (p : Platform) (segments : List PackSegment) (totalCap : ℤ) (bucketCaps : List (SegmentBucket × ℤ))
    (bucketStats : SegmentBucket → Dict) : List PackSegment × PackingDecisionLog × List String :=
  let (segments, decisionLog, warnings) := applyTrimLadder segments totalCap bucketCaps {} []
  (injectNote p.contentHash segments (dropVisibilityCounts p.readInt decisionLog bucketStats), decisionLog, warnings)

theorem length_renderNote (dropCounts : List (SegmentBucket × ℕ)) : (renderNote dropCounts).length ≤ noteMaxChars := by
  rw [renderNote]
  dsimp only
  split
  · exact Nat.zero_le _
  · rw [String.length_ofList]
    exact (List.rdropWhile_prefix _ _).length_le.trans (List.length_take_le _ _)

theorem estimateTokens_note (dropCounts : List (SegmentBucket × ℕ)) : estimateTokens (renderNote dropCounts) ≤ 90 := by
  have hlength := length_renderNote dropCounts
  rw [noteMaxChars] at hlength
  rw [estimateTokens]
  omega

/-- The segments of a pack after the trimming: the trimmed ones in their order, and at most one note. -/
structure Packed (totalCap : ℤ) (segments front note back : List PackSegment) : Prop where
  trimmed : List.Forall₂ Trimmed segments (front ++ back)
  note : note = [] ∨ ∃ s : PackSegment, note = [s] ∧ s.id = "context_drop_visibility" ∧ s.pinned = true ∧ estimateTokens s.content ≤ 90
  total : totalCap < tokensOf (front ++ back) →
    ∀ s ∈ front ++ back, s.bucket ∈ trimOrder → s.pinned = false → s.filled = false

/-- No pinned segment is changed, the order is kept, and where the segments exceed the total cap nothing is left to
drop. -/
theorem trim_packed (p : Platform) (segments : List PackSegment) (totalCap : ℤ) (bucketCaps : List (SegmentBucket × ℤ))
    (bucketStats : SegmentBucket → Dict) :
    ∃ front note back, (trimSegmentsForPack p segments totalCap bucketCaps bucketStats).1 = front ++ note ++ back ∧
      Packed totalCap segments front note back := by
  obtain ⟨htrimmed, hexhausted⟩ := applyTrimLadder_spec segments totalCap bucketCaps {} []
  rw [trimSegmentsForPack]
  generalize applyTrimLadder segments totalCap bucketCaps {} [] = laddered at htrimmed hexhausted
  obtain ⟨after, decisionLog, warnings⟩ := laddered
  dsimp only at htrimmed hexhausted ⊢
  have htotal : totalCap < tokensOf after → ∀ s ∈ after, s.bucket ∈ trimOrder → s.pinned = false → s.filled = false := by
    intro hexceeds s hs hbucket hpinned
    have hdropped := hexhausted hexceeds s.bucket hbucket s hs
    rw [droppable, hpinned, decide_eq_true rfl, Bool.true_and, Bool.not_false, Bool.and_true] at hdropped
    exact hdropped
  rw [injectNote]
  dsimp only
  split
  · refine ⟨after, [], [], ?_, ?_, .inl rfl, ?_⟩
    · rw [List.append_nil, List.append_nil]
    · rwa [List.append_nil]
    · rwa [List.append_nil]
  · generalize (match locate (fun s : PackSegment => s.bucket = .staticPrefix) after with
      | some (idx, _) => idx + 1
      | none => 0) = insertAt
    refine ⟨after.take insertAt, [noteSegment p.contentHash (renderNote (dropVisibilityCounts p.readInt decisionLog bucketStats))],
      after.drop insertAt, ?_, ?_, .inr ⟨_, rfl, rfl, rfl, estimateTokens_note _⟩, ?_⟩
    · rw [List.append_assoc]
      rfl
    · rwa [List.take_append_drop]
    · rwa [List.take_append_drop]

def plainPlatform : Platform where
  contentHash := id
  readInt _ := none

def digestAndFact : List PackSegment :=
  [{ id := "digest", bucket := .evidenceRefs, content := "seen", tokenEstimate := 1 },
    { id := "fact", bucket := .retrieval, content := "known", tokenEstimate := 1 }]

/-- The segments fit the total cap until the note comes, and the fact could still be dropped. -/
theorem noted_exceeds :
    let trimmed := (trimSegmentsForPack plainPlatform digestAndFact 10 [(.evidenceRefs, 0)] fun _ => []).1
    ¬ ((10 : ℤ) < tokensOf trimmed → ∀ s ∈ trimmed, s.bucket ∈ trimOrder → s.pinned = false → s.filled = false) := by
  decide +kernel

end OpenMinion.VisibilityNotes
