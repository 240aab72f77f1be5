import Mathlib.Algebra.BigOperators.Group.List.Basic
import Mathlib.Algebra.Order.Ring.Nat
import Mathlib.Data.List.Perm.Basic
import Mathlib.Logic.Function.Basic
import OpenMinion.ContextPackBuild

/-!
# Evidence packing

`pack_evidence_items` packs in the order of the ranks what the caps allow. It counts the estimates of the header and
of each item, rounded down, and not the separators of the rendered block.
-/
namespace OpenMinion.EvidencePacking
open ContextPackBuild

inductive EvidenceSource where
  | memory
  | knowledge
  deriving DecidableEq

structure ContextEvidenceOmission where
  sourceKind : EvidenceSource
  itemId : String
  provenanceIds : List String
  reason : String
  count : ℕ := 1
  deriving DecidableEq

structure ContextEvidenceItem where
  sourceKind : EvidenceSource
  itemId : String
  provenanceIds : List String
  citationIds : List String
  renderedText : String
  estimatedTokens : ℤ
  sourceRank : ℤ
  eligibilityFacts : List String := []
  deriving DecidableEq

structure ContextEvidencePack where
  items : List ContextEvidenceItem
  omissions : List ContextEvidenceOmission
  estimatedTokens : ℕ

def estimateTokens (text : String) : ℕ := max 1 (text.length / 4)

def EvidenceSource.header : EvidenceSource → String
  | .memory => "## Memory (dynamic retrieval)"
  | .knowledge => "## Third-brain graph context"

/-- The budgets of `default_budgets_for("act")`. -/
def actBudgets : ContextBudgets where
  totalMaxTokens := 1800
  identityTokens := 180
  summaryTokens := 250
  recentTurnTokens := 650
  factsTokens := 150
  memoryTokens := 250
  skillsTokens := 250
  artifactTokens := 200
  instructionsTokens := 120

section Packing
variable (budgets : ContextBudgets)

def sourceCap : EvidenceSource → ℕ
  | .memory => budgets.memoryTokens
  | .knowledge => budgets.artifactTokens

def totalCap : ℕ := min budgets.totalMaxTokens (budgets.memoryTokens + budgets.artifactTokens)

def packsBefore (a b : ContextEvidenceItem) : Bool :=
  let first : EvidenceSource → ℕ := fun source => if source = .memory then 0 else 1
  first a.sourceKind < first b.sourceKind || (first a.sourceKind = first b.sourceKind &&
    (a.sourceRank < b.sourceRank || (a.sourceRank = b.sourceRank && a.itemId ≤ b.itemId)))

structure PackState where
  packed : List ContextEvidenceItem := []
  omissions : List ContextEvidenceOmission
  seenProvenance : List (EvidenceSource × String) := []
  sourceTokens : EvidenceSource → ℕ := fun _ => 0
  packedSources : List EvidenceSource := []
  totalTokens : ℕ := 0

def omission (item : ContextEvidenceItem) (reason : String) : ContextEvidenceOmission where
  sourceKind := item.sourceKind
  itemId := item.itemId
  provenanceIds := item.provenanceIds
  reason := reason

def packItem (s : PackState) (item : ContextEvidenceItem) : PackState :=
  let provenance := item.provenanceIds.map fun id => (item.sourceKind, id)
  if provenance.any fun p => p ∈ s.seenProvenance then { s with omissions := s.omissions ++ [omission item "duplicate"] }
  else
    let itemTokens := estimateTokens item.renderedText
    let headerTokens := if item.sourceKind ∈ s.packedSources then 0 else estimateTokens item.sourceKind.header
    let packedItemTokens := headerTokens + itemTokens
    if s.sourceTokens item.sourceKind + packedItemTokens > sourceCap budgets item.sourceKind ∨
        s.totalTokens + packedItemTokens > totalCap budgets then
      { s with omissions := s.omissions ++ [omission item "budget"] }
    else
      { packed := s.packed ++ [item]
        omissions := s.omissions
        seenProvenance := s.seenProvenance ++ provenance
        sourceTokens := Function.update s.sourceTokens item.sourceKind (s.sourceTokens item.sourceKind + packedItemTokens)
        packedSources := s.packedSources ++ [item.sourceKind]
        totalTokens := s.totalTokens + packedItemTokens }

end Packing

def packEvidenceItems (items : List ContextEvidenceItem) (sourceOmissions : List ContextEvidenceOmission)
    (budgets : Option ContextBudgets) : ContextEvidencePack :=
  let resolvedBudgets := budgets.getD actBudgets
  let final := (items.mergeSort packsBefore).foldl (packItem resolvedBudgets) { omissions := sourceOmissions }
  { items := final.packed
    omissions := final.omissions
    estimatedTokens := final.totalTokens }

def ContextEvidencePack.ofSource (pack : ContextEvidencePack) (source : EvidenceSource) : List ContextEvidenceItem :=
  pack.items.filter fun item => item.sourceKind = source

def ContextEvidencePack.renderSource (pack : ContextEvidencePack) (source : EvidenceSource) : String :=
  "\n\n".intercalate ((pack.ofSource source).map ContextEvidenceItem.renderedText)

/-- The block that `pack_evidence_context` makes of a source. -/
def block (pack : ContextEvidencePack) (source : EvidenceSource) : String :=
  let text := pack.renderSource source
  if text = "" then "" else source.header ++ "\n" ++ text

def blockTokens (pack : ContextEvidencePack) (source : EvidenceSource) : ℕ :=
  if block pack source = "" then 0 else estimateTokens (block pack source)

def countedTokens (source : EvidenceSource) (items : List ContextEvidenceItem) : ℕ :=
  let own := items.filter fun item => item.sourceKind = source
  if own = [] then 0 else estimateTokens source.header + (own.map fun item : ContextEvidenceItem => estimateTokens item.renderedText).sum

/-- Every item is packed or omitted, no two packed items of a source share their provenance, what is counted respects
the caps, and the blocks exceed it by the separators and the rounding. -/
structure Accounted (items : List ContextEvidenceItem) (sourceOmissions : List ContextEvidenceOmission) (budgets : ContextBudgets)
    (pack : ContextEvidencePack) : Prop where
  once : ∃ omitted : List (ContextEvidenceItem × String),
    pack.omissions = sourceOmissions ++ omitted.map (fun o => omission o.1 o.2) ∧
      (pack.items ++ omitted.map Prod.fst).Perm items ∧ ∀ o ∈ omitted, o.2 = "duplicate" ∨ o.2 = "budget"
  apart : pack.items.Pairwise fun a b : ContextEvidenceItem => a.sourceKind = b.sourceKind → ∀ id ∈ a.provenanceIds, id ∉ b.provenanceIds
  counted : ∀ source, countedTokens source pack.items ≤ sourceCap budgets source
  total : countedTokens .memory pack.items + countedTokens .knowledge pack.items ≤ budgets.totalMaxTokens
  blocks : ∀ source, blockTokens pack source ≤ sourceCap budgets source + 5 * (pack.ofSource source).length / 4
  both : blockTokens pack .memory + blockTokens pack .knowledge ≤ budgets.totalMaxTokens + 5 * pack.items.length / 4

section Loop
variable {budgets : ContextBudgets} {sourceOmissions : List ContextEvidenceOmission} {done : List ContextEvidenceItem} {s : PackState}

/-- What the loop keeps after the items that it went through. -/
structure Packing (budgets : ContextBudgets) (sourceOmissions : List ContextEvidenceOmission) (done : List ContextEvidenceItem)
    (s : PackState) : Prop where
  once : ∃ omitted : List (ContextEvidenceItem × String),
    s.omissions = sourceOmissions ++ omitted.map (fun o => omission o.1 o.2) ∧
      (s.packed ++ omitted.map Prod.fst).Perm done ∧ ∀ o ∈ omitted, o.2 = "duplicate" ∨ o.2 = "budget"
  apart : s.packed.Pairwise fun a b : ContextEvidenceItem => a.sourceKind = b.sourceKind → ∀ id ∈ a.provenanceIds, id ∉ b.provenanceIds
  seen : ∀ a ∈ s.packed, ∀ id ∈ a.provenanceIds, (a.sourceKind, id) ∈ s.seenProvenance
  sources : ∀ source, source ∈ s.packedSources ↔ ∃ a ∈ s.packed, a.sourceKind = source
  tokens : ∀ source, s.sourceTokens source = countedTokens source s.packed
  capped : ∀ source, s.sourceTokens source ≤ sourceCap budgets source
  total : s.totalTokens = s.sourceTokens .memory + s.sourceTokens .knowledge
  within : s.totalTokens ≤ totalCap budgets

theorem Packing.omitted (h : Packing budgets sourceOmissions done s) (item : ContextEvidenceItem) {reason : String}
    (hreason : reason = "duplicate" ∨ reason = "budget") :
    Packing budgets sourceOmissions (done ++ [item]) { s with omissions := s.omissions ++ [omission item reason] } := by
  obtain ⟨omitted, hall, hperm, hreasons⟩ := h.once
  refine ⟨⟨omitted ++ [(item, reason)], ?_, ?_, ?_⟩, h.apart, h.seen, h.sources, h.tokens, h.capped, h.total, h.within⟩
  · rw [hall, List.map_append, List.append_assoc]
    rfl
  · rw [List.map_append, ← List.append_assoc]
    exact hperm.append_right [item]
  · intro o ho
    rcases List.mem_append.mp ho with hold | hnew
    · exact hreasons o hold
    · obtain rfl := List.mem_singleton.mp hnew
      exact hreason

/-- What a packed item adds to the count of its source: its own estimate, and at first the header's. -/
theorem countedTokens_append (source : EvidenceSource) (items : List ContextEvidenceItem) (item : ContextEvidenceItem) :
    countedTokens source (items ++ [item]) = countedTokens source items + if item.sourceKind = source then
      (if ∃ a ∈ items, a.sourceKind = source then 0 else estimateTokens source.header) + estimateTokens item.renderedText else 0 := by
  have hempty : (items.filter fun a => a.sourceKind = source) = [] ↔ ¬ ∃ a ∈ items, a.sourceKind = source := by
    rw [List.filter_eq_nil_iff]
    simp
  rw [countedTokens, countedTokens, List.filter_append]
  by_cases hsource : item.sourceKind = source
  · rw [List.filter_singleton, decide_eq_true hsource, cond_true, if_pos hsource, List.map_append, List.sum_append]
    by_cases hfirst : ∃ a ∈ items, a.sourceKind = source
    · have hown : (items.filter fun a => a.sourceKind = source) ≠ [] := fun hnone => hempty.mp hnone hfirst
      rw [if_pos hfirst, if_neg hown, if_neg (List.append_ne_nil_of_right_ne_nil _ (List.cons_ne_nil _ _))]
      simp [Nat.add_assoc]
    · have hown := hempty.mpr hfirst
      rw [if_neg hfirst, hown, if_pos rfl]
      simp
  · rw [List.filter_singleton, decide_eq_false hsource, cond_false, if_neg hsource, List.append_nil, Nat.add_zero]

theorem Packing.packed (h : Packing budgets sourceOmissions done s) (item : ContextEvidenceItem) {tokens : ℕ}
    (hnew : ∀ id ∈ item.provenanceIds, (item.sourceKind, id) ∉ s.seenProvenance)
    (htokens : tokens = (if item.sourceKind ∈ s.packedSources then 0 else estimateTokens item.sourceKind.header) +
      estimateTokens item.renderedText)
    (hsource : s.sourceTokens item.sourceKind + tokens ≤ sourceCap budgets item.sourceKind)
    (htotal : s.totalTokens + tokens ≤ totalCap budgets) :
    Packing budgets sourceOmissions (done ++ [item])
      { packed := s.packed ++ [item]
        omissions := s.omissions
        seenProvenance := s.seenProvenance ++ item.provenanceIds.map fun id => (item.sourceKind, id)
        sourceTokens := Function.update s.sourceTokens item.sourceKind (s.sourceTokens item.sourceKind + tokens)
        packedSources := s.packedSources ++ [item.sourceKind]
        totalTokens := s.totalTokens + tokens } := by
  have hadded : ∀ source, countedTokens source (s.packed ++ [item]) =
      countedTokens source s.packed + if item.sourceKind = source then tokens else 0 := by
    intro source
    rw [countedTokens_append]
    by_cases hown : item.sourceKind = source
    · subst hown
      rw [if_pos rfl, if_pos rfl, htokens]
      simp only [h.sources]
    · rw [if_neg hown, if_neg hown]
  constructor
  case once =>
    obtain ⟨omitted, hall, hperm, hreasons⟩ := h.once
    refine ⟨omitted, hall, ?_, hreasons⟩
    have hswap : (s.packed ++ [item] ++ omitted.map Prod.fst).Perm (s.packed ++ omitted.map Prod.fst ++ [item]) := by
      rw [List.append_assoc, List.append_assoc]
      exact List.perm_append_comm.append_left s.packed
    exact hswap.trans (hperm.append_right [item])
  case apart =>
    rw [List.pairwise_append]
    refine ⟨h.apart, List.pairwise_singleton _ _, ?_⟩
    intro a ha b hb hsame id hid hshared
    obtain rfl := List.mem_singleton.mp hb
    exact hnew id hshared (hsame ▸ h.seen a ha id hid)
  case seen =>
    intro a ha id hid
    rcases List.mem_append.mp ha with hold | hlast
    · exact List.mem_append_left _ (h.seen a hold id hid)
    · obtain rfl := List.mem_singleton.mp hlast
      exact List.mem_append_right _ (List.mem_map_of_mem hid)
  case sources =>
    intro source
    rw [List.mem_append, h.sources, List.mem_singleton]
    constructor
    · rintro (⟨a, ha, hsame⟩ | rfl)
      · exact ⟨a, List.mem_append_left _ ha, hsame⟩
      · exact ⟨item, List.mem_append_right _ List.mem_cons_self, rfl⟩
    · rintro ⟨a, ha, rfl⟩
      rcases List.mem_append.mp ha with hold | hlast
      · exact .inl ⟨a, hold, rfl⟩
      · exact .inr (congrArg ContextEvidenceItem.sourceKind (List.mem_singleton.mp hlast))
  case tokens =>
    intro source
    dsimp only
    rw [hadded, ← h.tokens]
    by_cases hown : item.sourceKind = source
    · subst hown
      rw [Function.update_self, if_pos rfl]
    · rw [Function.update_of_ne (Ne.symm hown), if_neg hown, Nat.add_zero]
  case capped =>
    intro source
    dsimp only
    by_cases hown : item.sourceKind = source
    · subst hown
      rw [Function.update_self]
      exact hsource
    · rw [Function.update_of_ne (Ne.symm hown)]
      exact h.capped source
  case total =>
    dsimp only
    rw [h.total]
    cases item.sourceKind with
    | memory =>
      rw [Function.update_self, Function.update_of_ne (by decide)]
      omega
    | knowledge =>
      rw [Function.update_self, Function.update_of_ne (by decide)]
      omega
  case within => exact htotal

theorem Packing.step (h : Packing budgets sourceOmissions done s) (item : ContextEvidenceItem) :
    Packing budgets sourceOmissions (done ++ [item]) (packItem budgets s item) := by
  rw [packItem]
  dsimp only
  generalize htokens : (if item.sourceKind ∈ s.packedSources then 0 else estimateTokens item.sourceKind.header) +
    estimateTokens item.renderedText = tokens
  split
  · exact h.omitted item (.inl rfl)
  · next hnew =>
    split
    · exact h.omitted item (.inr rfl)
    · next hfits =>
      rw [not_or, not_lt, not_lt] at hfits
      refine h.packed item ?_ htokens.symm hfits.1 hfits.2
      intro id hid hseen
      apply hnew
      rw [List.any_eq_true]
      exact ⟨_, List.mem_map_of_mem hid, decide_eq_true hseen⟩

theorem packing_start : Packing budgets sourceOmissions [] { omissions := sourceOmissions } := by
  refine ⟨⟨[], ?_, .nil, fun _ ho => (nomatch ho)⟩, .nil, fun _ ha => (nomatch ha), ?_, fun _ => rfl, fun _ => Nat.zero_le _, rfl,
    Nat.zero_le _⟩
  · exact (List.append_nil _).symm
  · intro source
    exact iff_of_false (fun h => nomatch h) fun h => nomatch h

theorem Packing.foldl (h : Packing budgets sourceOmissions done s) (items : List ContextEvidenceItem) :
    Packing budgets sourceOmissions (done ++ items) (items.foldl (packItem budgets) s) := by
  induction items generalizing done s with
  | nil =>
    rw [List.append_nil]
    exact h
  | cons item items ih =>
    have hstep := ih (h.step item)
    rwa [List.append_assoc] at hstep

end Loop

theorem length_intercalate {α : Type} (separator : List α) (word : List α) (words : List (List α)) :
    (separator.intercalate (word :: words)).length =
      word.length + (words.map fun w => separator.length + w.length).sum := by
  induction words generalizing word with
  | nil => simp
  | cons next words ih =>
    rw [List.intercalate_cons_cons, List.length_append, List.length_append, ih, List.map_cons, List.sum_cons]
    omega

theorem four_mul_estimateTokens (text : String) : text.length ≤ 4 * estimateTokens text + 3 := by
  rw [estimateTokens]
  omega

theorem length_header (source : EvidenceSource) : source.header.length ≤ 4 * estimateTokens source.header + 1 := by
  cases source <;> decide +kernel

theorem length_texts (items : List ContextEvidenceItem) :
    ((items.map fun item : ContextEvidenceItem => item.renderedText.toList).map fun w => "\n\n".toList.length + w.length).sum ≤
      4 * (items.map fun item : ContextEvidenceItem => estimateTokens item.renderedText).sum + 5 * items.length := by
  have htwo : "\n\n".toList.length = 2 := by decide +kernel
  induction items with
  | nil => exact Nat.zero_le _
  | cons item items ih =>
    have hitem := four_mul_estimateTokens item.renderedText
    rw [htwo] at ih ⊢
    rw [List.map_cons, List.map_cons, List.sum_cons, List.map_cons, List.sum_cons, List.length_cons, String.length_toList]
    omega

variable {pack : ContextEvidencePack}

theorem length_block {source : EvidenceSource} (hblock : block pack source ≠ "") :
    0 < countedTokens source pack.items ∧
      (block pack source).length ≤ 4 * countedTokens source pack.items + 5 * (pack.ofSource source).length := by
  rw [block] at hblock ⊢
  by_cases htext : pack.renderSource source = ""
  · rw [if_pos htext] at hblock
    exact absurd rfl hblock
  · rw [if_neg htext, String.length_append, String.length_append, countedTokens]
    rw [← ContextEvidencePack.ofSource]
    cases hown : pack.ofSource source with
    | nil =>
      rw [ContextEvidencePack.renderSource, hown] at htext
      exact absurd rfl htext
    | cons item items =>
      have hlength : (pack.renderSource source).length = item.renderedText.length +
          ((items.map fun item : ContextEvidenceItem => item.renderedText.toList).map fun w => "\n\n".toList.length + w.length).sum := by
        rw [ContextEvidencePack.renderSource, hown, ← String.length_toList, String.toList_intercalate, List.map_map, List.map_cons,
          length_intercalate, Function.comp_apply, String.length_toList]
        rfl
      have hheader := length_header source
      have hitem := four_mul_estimateTokens item.renderedText
      have hitems := length_texts items
      have hone : 1 ≤ estimateTokens source.header := le_max_left _ _
      have hnewline : "\n".length = 1 := by decide +kernel
      rw [if_neg (List.cons_ne_nil _ _), List.map_cons, List.sum_cons, List.length_cons, hlength, hnewline]
      omega

theorem blockTokens_le (pack : ContextEvidencePack) (source : EvidenceSource) :
    blockTokens pack source ≤ countedTokens source pack.items + 5 * (pack.ofSource source).length / 4 := by
  rw [blockTokens]
  split
  · exact Nat.zero_le _
  · next hblock =>
    obtain ⟨hpos, hlength⟩ := length_block hblock
    rw [estimateTokens]
    omega

theorem length_ofSource (pack : ContextEvidencePack) :
    (pack.ofSource .memory).length + (pack.ofSource .knowledge).length = pack.items.length := by
  rw [ContextEvidencePack.ofSource, ContextEvidencePack.ofSource]
  induction pack.items with
  | nil => rfl
  | cons item items ih =>
    rw [List.filter_cons, List.filter_cons, List.length_cons]
    cases item.sourceKind with
    | memory =>
      rw [if_pos (by decide), if_neg (by decide), List.length_cons]
      omega
    | knowledge =>
      rw [if_neg (by decide), if_pos (by decide), List.length_cons]
      omega

/-- The packing of any items within any budgets accounts for every item. -/
theorem pack_accounted (items : List ContextEvidenceItem) (sourceOmissions : List ContextEvidenceOmission)
    (budgets : Option ContextBudgets) :
    Accounted items sourceOmissions (budgets.getD actBudgets) (packEvidenceItems items sourceOmissions budgets) := by
  have hstart : Packing (budgets.getD actBudgets) sourceOmissions [] { omissions := sourceOmissions } := packing_start
  have hfinal := hstart.foldl (items.mergeSort packsBefore)
  have hcounted : ∀ source, countedTokens source (packEvidenceItems items sourceOmissions budgets).items ≤
      sourceCap (budgets.getD actBudgets) source := by
    intro source
    exact (hfinal.tokens source).symm.trans_le (hfinal.capped source)
  have htotal : countedTokens .memory (packEvidenceItems items sourceOmissions budgets).items +
      countedTokens .knowledge (packEvidenceItems items sourceOmissions budgets).items ≤ (budgets.getD actBudgets).totalMaxTokens := by
    have hwithin := hfinal.within.trans (min_le_left _ _)
    rw [hfinal.total, hfinal.tokens, hfinal.tokens] at hwithin
    exact hwithin
  constructor
  case once =>
    obtain ⟨omitted, hall, hperm, hreasons⟩ := hfinal.once
    exact ⟨omitted, hall, hperm.trans (List.mergeSort_perm items packsBefore), hreasons⟩
  case apart => exact hfinal.apart
  case counted => exact hcounted
  case total => exact htotal
  case blocks =>
    intro source
    exact (blockTokens_le _ source).trans (Nat.add_le_add_right (hcounted source) _)
  case both =>
    have hmemory := blockTokens_le (packEvidenceItems items sourceOmissions budgets) .memory
    have hknowledge := blockTokens_le (packEvidenceItems items sourceOmissions budgets) .knowledge
    have hlength := length_ofSource (packEvidenceItems items sourceOmissions budgets)
    omega

def fullMemory : List ContextEvidenceItem :=
  [{ sourceKind := .memory, itemId := "a", provenanceIds := ["a"], citationIds := [], renderedText := "1234567", estimatedTokens := 1, sourceRank := 0 },
    { sourceKind := .memory, itemId := "b", provenanceIds := ["b"], citationIds := [], renderedText := "1234567", estimatedTokens := 1, sourceRank := 1 }]

def smallBudgets : ContextBudgets := { actBudgets with memoryTokens := 9 }

theorem fullMemory_exceeds :
    ¬ blockTokens (packEvidenceItems fullMemory [] (some smallBudgets)) .memory ≤ sourceCap smallBudgets .memory := by
  have hsorted : fullMemory.mergeSort packsBefore = fullMemory := List.mergeSort_of_pairwise (by decide +kernel)
  rw [packEvidenceItems, hsorted]
  decide +kernel

end OpenMinion.EvidencePacking
