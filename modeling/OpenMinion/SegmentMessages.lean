import Mathlib.Data.List.Perm.Subperm
import Mathlib.Logic.Function.Basic
import OpenMinion.PythonText

/-!
# Messages of segments

`segments_to_messages` orders the segments by their buckets and merges those of a bucket that no one speaks to one
system message, which stands where the bucket begins.
-/
namespace OpenMinion.SegmentMessages
open PythonText

inductive MessageRole where
  | system
  | developer
  | user
  | assistant
  | tool
  deriving DecidableEq

/-- The buckets, in the order of `bucket_order`. -/
inductive SegmentBucket where
  | staticPrefix
  | missionSnapshot
  | budgetTelemetry
  | taskDigest
  | summaries
  | conversationSummary
  | activePlan
  | trailerFeedback
  | selfAwareness
  | recentWindow
  | memory
  | retrieval
  | evidenceRefs
  | turnInput
  deriving DecidableEq

structure ContextSegment where
  id : String
  bucket : SegmentBucket
  role : MessageRole := .system
  content : String
  refs : List String := []
  isCacheable : Bool := false
  cacheKey : String := ""
  cacheInvalidationRefs : List String := []
  deriving DecidableEq

/-- A message; `cacheControl` is the type of its `cache_control`, and the fields after it are those
of its `meta`. -/
structure RenderMessage where
  role : MessageRole
  content : String
  cacheControl : Option String := none
  blockKind : SegmentBucket
  cacheEligible : Bool
  segmentIds : List String
  refs : List String
  cacheKey : String
  cacheInvalidationRefs : List String
  deriving DecidableEq

/-- `_bucket_order_index`; every bucket has its place in the order. -/
def bucketOrderIndex (bucket : SegmentBucket) : ℕ := bucket.ctorIdx

def MessageRole.spoken : MessageRole → Bool
  | .user | .assistant | .tool => true
  | .system | .developer => false

def isBlank (s : ContextSegment) : Bool := strip s.content = ""

def merges (s : ContextSegment) : Bool := !isBlank s && !s.role.spoken && s.bucket ≠ .recentWindow

/-- The dictionaries of `_merge_system_segments`. -/
structure MergedSystem where
  contents : SegmentBucket → List String := fun _ => []
  cacheControl : SegmentBucket → Option String := fun _ => none
  segmentIds : SegmentBucket → List String := fun _ => []
  refs : SegmentBucket → List String := fun _ => []

def MergedSystem.add (m : MergedSystem) (s : ContextSegment) : MergedSystem :=
  if !merges s then m
  else
    { contents := Function.update m.contents s.bucket (m.contents s.bucket ++ [s.content])
      cacheControl :=
        if s.isCacheable then Function.update m.cacheControl s.bucket (some ((m.cacheControl s.bucket).getD "ephemeral"))
        else m.cacheControl
      segmentIds := Function.update m.segmentIds s.bucket (m.segmentIds s.bucket ++ [s.id])
      refs := Function.update m.refs s.bucket
        (s.refs.foldl (fun refs ref => if ref ∈ refs then refs else refs ++ [ref]) (m.refs s.bucket)) }

def mergeSystemSegments (ordered : List ContextSegment) : MergedSystem := ordered.foldl MergedSystem.add {}

def systemMessage (m : MergedSystem) (s : ContextSegment) : RenderMessage where
  role := .system
  content := "\n\n".intercalate (m.contents s.bucket)
  cacheControl := m.cacheControl s.bucket
  blockKind := s.bucket
  cacheEligible := (m.cacheControl s.bucket).isSome
  segmentIds := m.segmentIds s.bucket
  refs := m.refs s.bucket
  cacheKey := s.cacheKey
  cacheInvalidationRefs := s.cacheInvalidationRefs

def segmentMessage (s : ContextSegment) : RenderMessage where
  role := s.role
  content := s.content
  blockKind := s.bucket
  cacheEligible := s.isCacheable
  segmentIds := [s.id]
  refs := s.refs
  cacheKey := s.cacheKey
  cacheInvalidationRefs := s.cacheInvalidationRefs

def emitMessages (m : MergedSystem) (seen : List SegmentBucket) : List ContextSegment → List RenderMessage
  | [] => []
  | s :: rest =>
    if isBlank s then emitMessages m seen rest
    else if m.contents s.bucket ≠ [] ∧ s.bucket ∉ seen then systemMessage m s :: emitMessages m (s.bucket :: seen) rest
    else if s.bucket = .recentWindow || s.role.spoken then segmentMessage s :: emitMessages m seen rest
    else emitMessages m seen rest

/-- `sorted` by the order of the buckets. -/
def orderSegments (segments : List ContextSegment) : List ContextSegment :=
  segments.mergeSort fun s t => bucketOrderIndex s.bucket ≤ bucketOrderIndex t.bucket

def segmentsToMessages (segments : List ContextSegment) : List RenderMessage :=
  let ordered := orderSegments segments
  emitMessages (mergeSystemSegments ordered) [] ordered

def shown (segments : List ContextSegment) : List ContextSegment := segments.filter fun s => !isBlank s

def MessageRole.roleClass : MessageRole → MessageRole
  | .developer => .system
  | role => role

def Shows (message : RenderMessage) (group : List ContextSegment) : Prop :=
  message.content = "\n\n".intercalate (group.map ContextSegment.content) ∧ message.segmentIds = group.map ContextSegment.id

/-- Every segment is in one message, and those of one bucket and class keep their order. -/
def RendersAll (segments : List ContextSegment) (messages : List RenderMessage) : Prop :=
  ∃ groups, List.Forall₂ Shows messages groups ∧ groups.flatten.Perm (shown segments) ∧
    ∀ (bucket : SegmentBucket) (role : MessageRole),
      groups.flatten.filter (fun s => s.bucket = bucket && s.role.roleClass = role) =
        (shown segments).filter fun s => s.bucket = bucket && s.role.roleClass = role

/-- No one speaks the first segment of a bucket that has segments to merge. -/
def BeginsWithSystem (segments : List ContextSegment) : Prop :=
  ∀ (bucket : SegmentBucket) (first : ContextSegment),
    ((shown segments).filter fun s => s.bucket = bucket).head? = some first →
      (∃ s ∈ segments, s.bucket = bucket ∧ merges s = true) → first.role.spoken = false

variable {segments ordered rest : List ContextSegment} {bucket : SegmentBucket} {m : MergedSystem}

theorem filter_orderSegments (bucket : SegmentBucket) {p : ContextSegment → Bool} (hp : ∀ s, p s = true → s.bucket = bucket) (segments : List ContextSegment) :
    (orderSegments segments).filter p = segments.filter p := by
  have hperm : (orderSegments segments).Perm segments := List.mergeSort_perm _ _
  have hpairwise : (segments.filter p).Pairwise fun s t => decide (bucketOrderIndex s.bucket ≤ bucketOrderIndex t.bucket) = true := by
    refine List.pairwise_of_forall_mem_list ?_
    intro s hs t ht
    rw [hp s (List.mem_filter.mp hs).2, hp t (List.mem_filter.mp ht).2]
    exact decide_eq_true le_rfl
  have hsub : (segments.filter p).Sublist (orderSegments segments) := by
    refine List.sublist_mergeSort ?_ ?_ hpairwise List.filter_sublist
    · intro s t u hst htu
      exact decide_eq_true ((of_decide_eq_true hst).trans (of_decide_eq_true htu))
    · intro s t
      rw [Bool.or_eq_true, decide_eq_true_eq, decide_eq_true_eq]
      exact le_total _ _
  have hfiltered : (segments.filter p).Sublist ((orderSegments segments).filter p) := by
    have hboth := hsub.filter p
    rwa [List.filter_filter, funext fun s => Bool.and_self (p s)] at hboth
  exact (hfiltered.eq_of_length (hperm.filter p).length_eq.symm).symm

def mergedOf (segments : List ContextSegment) (bucket : SegmentBucket) : List ContextSegment :=
  segments.filter fun s => s.bucket = bucket && merges s

theorem mergedOf_cons (s : ContextSegment) (rest : List ContextSegment) (bucket : SegmentBucket) :
    mergedOf (s :: rest) bucket = (if s.bucket = bucket ∧ merges s = true then [s] else []) ++ mergedOf rest bucket := by
  rw [mergedOf, List.filter_cons]
  by_cases h : s.bucket = bucket ∧ merges s = true
  · rw [if_pos (by simpa using h), if_pos h]
    rfl
  · rw [if_neg (by simpa using h), if_neg h]
    rfl

theorem contents_add (m : MergedSystem) (s : ContextSegment) (bucket : SegmentBucket) :
    (m.add s).contents bucket = m.contents bucket ++ (if s.bucket = bucket ∧ merges s = true then [s] else []).map ContextSegment.content := by
  rw [MergedSystem.add]
  cases hmerges : merges s with
  | false => simp
  | true =>
    by_cases hbucket : s.bucket = bucket
    · subst hbucket
      simp
    · simp [hbucket, Function.update_of_ne (Ne.symm hbucket)]

theorem segmentIds_add (m : MergedSystem) (s : ContextSegment) (bucket : SegmentBucket) :
    (m.add s).segmentIds bucket = m.segmentIds bucket ++ (if s.bucket = bucket ∧ merges s = true then [s] else []).map ContextSegment.id := by
  rw [MergedSystem.add]
  cases hmerges : merges s with
  | false => simp
  | true =>
    by_cases hbucket : s.bucket = bucket
    · subst hbucket
      simp
    · simp [hbucket, Function.update_of_ne (Ne.symm hbucket)]

theorem foldl_add (m : MergedSystem) (ordered : List ContextSegment) (bucket : SegmentBucket) :
    (ordered.foldl MergedSystem.add m).contents bucket = m.contents bucket ++ (mergedOf ordered bucket).map ContextSegment.content ∧
    (ordered.foldl MergedSystem.add m).segmentIds bucket = m.segmentIds bucket ++ (mergedOf ordered bucket).map ContextSegment.id := by
  induction ordered generalizing m with
  | nil => simp [mergedOf]
  | cons s rest ih =>
    obtain ⟨hcontents, hids⟩ := ih (m.add s)
    rw [List.foldl_cons, hcontents, hids, contents_add, segmentIds_add, mergedOf_cons, List.map_append, List.map_append,
      List.append_assoc, List.append_assoc]
    exact ⟨rfl, rfl⟩

def alone (s : ContextSegment) : Bool := s.bucket = .recentWindow || s.role.spoken

def emitGroups (merged : SegmentBucket → List ContextSegment) (seen : List SegmentBucket) :
    List ContextSegment → List (List ContextSegment)
  | [] => []
  | s :: rest =>
    if isBlank s then emitGroups merged seen rest
    else if merged s.bucket ≠ [] ∧ s.bucket ∉ seen then merged s.bucket :: emitGroups merged (s.bucket :: seen) rest
    else if alone s then [s] :: emitGroups merged seen rest
    else emitGroups merged seen rest

theorem emitMessages_shows {merged : SegmentBucket → List ContextSegment}
    (hcontents : ∀ b, m.contents b = (merged b).map ContextSegment.content)
    (hids : ∀ b, m.segmentIds b = (merged b).map ContextSegment.id) (seen : List SegmentBucket) (ordered : List ContextSegment) :
    List.Forall₂ Shows (emitMessages m seen ordered) (emitGroups merged seen ordered) := by
  have hnone : ∀ b, m.contents b ≠ [] ↔ merged b ≠ [] := by
    intro b
    rw [hcontents, Ne, List.map_eq_nil_iff]
  induction ordered generalizing seen with
  | nil => exact .nil
  | cons s rest ih =>
    simp only [emitMessages, emitGroups, hnone]
    split
    · exact ih seen
    · split
      · refine .cons ⟨?_, hids s.bucket⟩ (ih _)
        rw [systemMessage, hcontents]
      · change List.Forall₂ Shows (if alone s = true then _ else _) _
        split
        · exact .cons ⟨by simp [segmentMessage], rfl⟩ (ih seen)
        · exact ih seen

def placed (merged : List ContextSegment) : List ContextSegment → List ContextSegment
  | [] => []
  | s :: rest => if merged = [] then (s :: rest).filter alone else merged ++ rest.filter alone

theorem placed_nil (segments : List ContextSegment) : placed [] segments = segments.filter alone := by
  cases segments with
  | nil => rfl
  | cons s rest => rw [placed, if_pos rfl]

theorem placed_cons {merged : List ContextSegment} (hmerged : merged ≠ []) (s : ContextSegment) (rest : List ContextSegment) :
    placed merged (s :: rest) = merged ++ rest.filter alone := if_neg hmerged

theorem filter_emitGroups {merged : SegmentBucket → List ContextSegment} (hmerged : ∀ b, ∀ s ∈ merged b, s.bucket = b)
    (bucket : SegmentBucket) (seen : List SegmentBucket) (ordered : List ContextSegment) :
    (emitGroups merged seen ordered).flatten.filter (fun s => s.bucket = bucket) =
      if bucket ∈ seen then ((shown ordered).filter fun s => s.bucket = bucket).filter alone
      else placed (merged bucket) ((shown ordered).filter fun s => s.bucket = bucket) := by
  induction ordered generalizing seen with
  | nil => simp [emitGroups, shown, placed]
  | cons s rest ih =>
    rw [emitGroups]
    cases hblank : isBlank s with
    | true =>
      have hshown : shown (s :: rest) = shown rest := List.filter_cons_of_neg (by simp [hblank])
      rw [if_pos rfl, ih, hshown]
    | false =>
      have hshown : shown (s :: rest) = s :: shown rest := List.filter_cons_of_pos (by simp [hblank])
      rw [if_neg Bool.false_ne_true, hshown]
      by_cases hbucket : s.bucket = bucket
      · subst hbucket
        have hcons : (s :: shown rest).filter (fun t => t.bucket = s.bucket) = s :: (shown rest).filter fun t => t.bucket = s.bucket :=
          List.filter_cons_of_pos (decide_eq_true rfl)
        rw [hcons]
        by_cases hfirst : merged s.bucket ≠ [] ∧ s.bucket ∉ seen
        · have hall : (merged s.bucket).filter (fun t => t.bucket = s.bucket) = merged s.bucket := by
            rw [List.filter_eq_self]
            intro t ht
            exact decide_eq_true (hmerged _ t ht)
          rw [if_pos hfirst, if_neg hfirst.2, placed_cons hfirst.1, List.flatten_cons, List.filter_append, hall, ih,
            if_pos List.mem_cons_self]
        · have hrest : (if s.bucket ∈ seen then (s :: (shown rest).filter fun t => t.bucket = s.bucket).filter alone
              else placed (merged s.bucket) (s :: (shown rest).filter fun t => t.bucket = s.bucket)) =
              [s].filter alone ++ if s.bucket ∈ seen then ((shown rest).filter fun t => t.bucket = s.bucket).filter alone
                else placed (merged s.bucket) ((shown rest).filter fun t => t.bucket = s.bucket) := by
            by_cases hseen : s.bucket ∈ seen
            · rw [if_pos hseen, if_pos hseen, ← List.filter_append]
              rfl
            · have hnone : merged s.bucket = [] := by
                by_contra hsome
                exact hfirst ⟨hsome, hseen⟩
              rw [if_neg hseen, if_neg hseen, hnone, placed_nil, placed_nil, ← List.filter_append]
              rfl
          rw [if_neg hfirst, hrest, ← ih seen]
          split
          · next halone => simp [halone]
          · next halone => simp [halone]
      · have hskip : (s :: shown rest).filter (fun t => t.bucket = bucket) = (shown rest).filter fun t => t.bucket = bucket :=
          List.filter_cons_of_neg (by simpa using hbucket)
        rw [hskip]
        split
        · have hnone : (merged s.bucket).filter (fun t => t.bucket = bucket) = [] := by
            rw [List.filter_eq_nil_iff]
            intro t ht
            rw [decide_eq_true_eq, hmerged _ t ht]
            exact hbucket
          have hseen : bucket ∈ s.bucket :: seen ↔ bucket ∈ seen := by
            rw [List.mem_cons]
            exact or_iff_right (Ne.symm hbucket)
          rw [List.flatten_cons, List.filter_append, hnone, List.nil_append, ih]
          simp only [hseen]
        · split
          · rw [List.flatten_cons, List.filter_append, ih, List.filter_cons_of_neg (by simpa using hbucket)]
            rfl
          · exact ih seen

def shownOf (segments : List ContextSegment) (bucket : SegmentBucket) : List ContextSegment :=
  (shown segments).filter fun s => s.bucket = bucket

def groupsOf (segments : List ContextSegment) : List (List ContextSegment) :=
  emitGroups (mergedOf segments) [] (orderSegments segments)

theorem mergedOf_eq (segments : List ContextSegment) (bucket : SegmentBucket) :
    mergedOf segments bucket = (shownOf segments bucket).filter fun s => !alone s := by
  rw [mergedOf, shownOf, shown, List.filter_filter, List.filter_filter]
  apply List.filter_congr
  intro s _
  rw [merges, alone]
  cases isBlank s <;> cases s.role.spoken <;> by_cases hbucket : s.bucket = bucket <;> simp [hbucket]

theorem segmentsToMessages_shows (segments : List ContextSegment) : List.Forall₂ Shows (segmentsToMessages segments) (groupsOf segments) := by
  have hordered : ∀ b, mergedOf (orderSegments segments) b = mergedOf segments b := by
    intro b
    refine filter_orderSegments b ?_ segments
    intro s hs
    exact of_decide_eq_true (Bool.and_eq_true_iff.mp hs).1
  refine emitMessages_shows ?_ ?_ [] _
  · intro b
    rw [mergeSystemSegments, (foldl_add {} _ b).1, hordered]
    rfl
  · intro b
    rw [mergeSystemSegments, (foldl_add {} _ b).2, hordered]
    rfl

theorem filter_groupsOf (segments : List ContextSegment) (bucket : SegmentBucket) :
    (groupsOf segments).flatten.filter (fun s => s.bucket = bucket) =
      placed ((shownOf segments bucket).filter fun s => !alone s) (shownOf segments bucket) := by
  have hmerged : ∀ b, ∀ s ∈ mergedOf segments b, s.bucket = b := by
    intro b s hs
    exact of_decide_eq_true (Bool.and_eq_true_iff.mp (List.mem_filter.mp hs).2).1
  have hordered : ((shown (orderSegments segments)).filter fun s => s.bucket = bucket) = shownOf segments bucket := by
    rw [shown, shownOf, shown, List.filter_filter, List.filter_filter]
    refine filter_orderSegments bucket ?_ segments
    intro s hs
    exact of_decide_eq_true (Bool.and_eq_true_iff.mp hs).1
  rw [groupsOf, filter_emitGroups hmerged, if_neg List.not_mem_nil, hordered, mergedOf_eq]

theorem filter_partition {α : Type} {p q : α → Bool} {xs : List α}
    (h : (∀ x ∈ xs, q x = true → p x = true) ∨ (∀ x ∈ xs, q x = true → p x = false)) :
    ((xs.filter fun x => !p x) ++ xs.filter p).filter q = xs.filter q := by
  rw [List.filter_append, List.filter_filter, List.filter_filter]
  rcases h with hin | hout
  · have hnone : (xs.filter fun x => q x && !p x) = [] := by
      rw [List.filter_eq_nil_iff]
      intro x hx
      by_cases hq : q x = true
      · simp [hin x hx hq]
      · simp [hq]
    rw [hnone, List.nil_append]
    apply List.filter_congr
    intro x hx
    by_cases hq : q x = true
    · simp [hq, hin x hx hq]
    · simp [hq]
  · have hnone : (xs.filter fun x => q x && p x) = [] := by
      rw [List.filter_eq_nil_iff]
      intro x hx
      by_cases hq : q x = true
      · simp [hout x hx hq]
      · simp [hq]
    rw [hnone, List.append_nil]
    apply List.filter_congr
    intro x hx
    by_cases hq : q x = true
    · simp [hq, hout x hx hq]
    · simp [hq]

theorem partition_perm {α : Type} (p : α → Bool) (xs : List α) : ((xs.filter fun x => !p x) ++ xs.filter p).Perm xs :=
  List.perm_append_comm.trans (List.filter_append_perm p xs)

theorem bucket_shownOf {s : ContextSegment} (hs : s ∈ shownOf segments bucket) : s.bucket = bucket :=
  of_decide_eq_true (List.mem_filter.mp hs).2

/-- Where no one speaks the first segment of a bucket, the merged segments come first and the others
follow in their order. -/
theorem placed_of_begins (h : BeginsWithSystem segments) (bucket : SegmentBucket) :
    placed ((shownOf segments bucket).filter fun s => !alone s) (shownOf segments bucket) =
      ((shownOf segments bucket).filter fun s => !alone s) ++ (shownOf segments bucket).filter alone := by
  by_cases hmerged : ((shownOf segments bucket).filter fun s => !alone s) = []
  · rw [hmerged, placed_nil, List.nil_append]
  · cases hsegments : shownOf segments bucket with
    | nil => rfl
    | cons first rest =>
      have hfirst : alone first = false := by
        obtain ⟨s, hs⟩ := List.exists_mem_of_ne_nil _ hmerged
        have hsome : ∃ s ∈ segments, s.bucket = bucket ∧ merges s = true := by
          rw [← mergedOf_eq, mergedOf, List.mem_filter, Bool.and_eq_true, decide_eq_true_eq] at hs
          exact ⟨s, hs⟩
        have hhead : ((shown segments).filter fun s => s.bucket = bucket).head? = some first := by
          rw [← shownOf, hsegments]
          rfl
        obtain ⟨t, ht, htbucket, htmerges⟩ := hsome
        have hspoken := h bucket first hhead ⟨t, ht, htbucket, htmerges⟩
        have hother : first.bucket ≠ .recentWindow := by
          have hfb : first.bucket = bucket := bucket_shownOf (hsegments ▸ List.mem_cons_self)
          rw [merges, Bool.and_eq_true, decide_eq_true_eq] at htmerges
          rw [hfb, ← htbucket]
          exact htmerges.2
        simp [alone, hspoken, hother]
      rw [hsegments] at hmerged
      rw [placed_cons hmerged, List.filter_cons_of_neg (p := alone) (by simp [hfirst])]

theorem placed_subperm (xs : List ContextSegment) : (placed (xs.filter fun s => !alone s) xs).Subperm xs := by
  cases xs with
  | nil => exact List.Subperm.refl _
  | cons s rest =>
    by_cases hmerged : ((s :: rest).filter fun s => !alone s) = []
    · rw [hmerged, placed_nil]
      exact List.filter_sublist.subperm
    · have hrest : (rest.filter alone).Sublist ((s :: rest).filter alone) := (List.sublist_cons_self s rest).filter alone
      rw [placed_cons hmerged]
      exact ((hrest.append_left _).subperm).trans (partition_perm alone (s :: rest)).subperm

theorem count_eq_filter (s : ContextSegment) (xs : List ContextSegment) :
    xs.count s = (xs.filter fun t => t.bucket = s.bucket).count s :=
  (List.count_filter (p := fun t : ContextSegment => decide (t.bucket = s.bucket)) (decide_eq_true rfl)).symm

theorem groupsOf_subperm (segments : List ContextSegment) : (groupsOf segments).flatten.Subperm (shown segments) := by
  rw [List.subperm_ext_iff]
  intro s _
  rw [count_eq_filter s (groupsOf segments).flatten, count_eq_filter s (shown segments), filter_groupsOf]
  exact (placed_subperm (shownOf segments s.bucket)).count_le s

theorem groupsOf_perm (h : BeginsWithSystem segments) : (groupsOf segments).flatten.Perm (shown segments) := by
  rw [List.perm_iff_count]
  intro s
  rw [count_eq_filter s (groupsOf segments).flatten, count_eq_filter s (shown segments), filter_groupsOf, placed_of_begins h]
  exact (partition_perm alone (shownOf segments s.bucket)).count_eq s

theorem alone_of_roleClass {s : ContextSegment} {role : MessageRole} (hbucket : s.bucket ≠ .recentWindow) (hrole : s.role.roleClass = role) :
    alone s = role.spoken := by
  subst hrole
  rw [alone, decide_eq_false hbucket, Bool.false_or]
  cases s.role <;> rfl

theorem filter_class (h : BeginsWithSystem segments) (bucket : SegmentBucket) (role : MessageRole) :
    (groupsOf segments).flatten.filter (fun s => s.bucket = bucket && s.role.roleClass = role) =
      (shown segments).filter fun s => s.bucket = bucket && s.role.roleClass = role := by
  have hsplit : ∀ xs : List ContextSegment, xs.filter (fun s => s.bucket = bucket && s.role.roleClass = role) =
      (xs.filter fun s => s.bucket = bucket).filter fun s => s.role.roleClass = role := by
    intro xs
    rw [List.filter_filter]
    apply List.filter_congr
    intro s _
    exact Bool.and_comm _ _
  rw [hsplit, hsplit, filter_groupsOf, placed_of_begins h]
  refine filter_partition ?_
  by_cases hbucket : bucket = .recentWindow
  · refine .inl fun s hs _ => ?_
    rw [alone, bucket_shownOf hs, hbucket]
    rfl
  · cases hspoken : role.spoken with
    | true =>
      refine .inl fun s hs hrole => ?_
      have hother : s.bucket ≠ .recentWindow := (bucket_shownOf hs).symm ▸ hbucket
      rw [alone_of_roleClass hother (of_decide_eq_true hrole), hspoken]
    | false =>
      refine .inr fun s hs hrole => ?_
      have hother : s.bucket ≠ .recentWindow := (bucket_shownOf hs).symm ▸ hbucket
      rw [alone_of_roleClass hother (of_decide_eq_true hrole), hspoken]

theorem ids_of_shows {messages : List RenderMessage} {groups : List (List ContextSegment)} (h : List.Forall₂ Shows messages groups) :
    (messages.map RenderMessage.segmentIds).flatten = groups.flatten.map ContextSegment.id := by
  induction h with
  | nil => rfl
  | cons hshows _ ih => rw [List.map_cons, List.flatten_cons, ih, hshows.2, List.flatten_cons, List.map_append]

theorem placed_perm_of_rendersAll (h : RendersAll segments (segmentsToMessages segments)) (bucket : SegmentBucket) :
    (placed ((shownOf segments bucket).filter fun s => !alone s) (shownOf segments bucket)).Perm (shownOf segments bucket) := by
  obtain ⟨groups, hshows, hperm, -⟩ := h
  have hids : groups.flatten.map ContextSegment.id = (groupsOf segments).flatten.map ContextSegment.id :=
    (ids_of_shows hshows).symm.trans (ids_of_shows (segmentsToMessages_shows segments))
  have hlength : (groupsOf segments).flatten.length = (shown segments).length := by
    have heq := congrArg List.length hids
    rw [List.length_map, List.length_map] at heq
    rw [← heq, hperm.length_eq]
  have hall : (groupsOf segments).flatten.Perm (shown segments) := (groupsOf_subperm segments).perm_of_length_le hlength.ge
  have hbucket := hall.filter fun s => s.bucket = bucket
  rw [filter_groupsOf] at hbucket
  exact hbucket

/-- The rendering loses no segment exactly when no one speaks the first segment of a bucket that has
segments to merge. -/
theorem rendersAll_iff (segments : List ContextSegment) :
    RendersAll segments (segmentsToMessages segments) ↔ BeginsWithSystem segments := by
  constructor
  · intro h bucket first hfirst hmerges
    by_contra hspoken
    rw [Bool.not_eq_false] at hspoken
    obtain ⟨rest, hsegments⟩ : ∃ rest, shownOf segments bucket = first :: rest := List.head?_eq_some_iff.mp hfirst
    have hmerged : ((first :: rest).filter fun s => !alone s) ≠ [] := by
      obtain ⟨s, hs, hbucket, hmerge⟩ := hmerges
      rw [← hsegments, ← mergedOf_eq]
      refine List.ne_nil_of_mem (a := s) (List.mem_filter.mpr ⟨hs, ?_⟩)
      rw [hmerge, decide_eq_true hbucket]
      rfl
    have hperm := placed_perm_of_rendersAll h bucket
    have halone : alone first = true := by
      rw [alone, hspoken, Bool.or_true]
    have hwhole := (partition_perm alone (first :: rest)).length_eq
    rw [hsegments, placed_cons hmerged] at hperm
    have hlength := hperm.length_eq
    rw [List.length_append] at hlength hwhole
    rw [List.filter_cons_of_pos halone, List.length_cons] at hwhole
    omega
  · intro h
    exact ⟨groupsOf segments, segmentsToMessages_shows segments, groupsOf_perm h, filter_class h⟩

def spokenFirst : List ContextSegment :=
  [{ id := "u", bucket := .memory, role := .user, content := "asked" }, { id := "s", bucket := .memory, content := "known" }]

theorem spokenFirst_lost : ¬ RendersAll spokenFirst (segmentsToMessages spokenFirst) := by
  intro h
  have hperm := placed_perm_of_rendersAll h .memory
  exact absurd hperm.length_eq (by decide +kernel)

end OpenMinion.SegmentMessages
