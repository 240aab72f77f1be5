import Mathlib.Data.Int.Notation
import OpenMinion.CompactionRebuild
import OpenMinion.WordTexts

/-!
# Seeds of a bundle

`_build_seed_from_bundle` renders the tiers of a bundle as sections, and `BudgetArbiter.enforce`
cuts every section to the cap of its tier and then to what is left of the total.
-/
namespace OpenMinion.SeedBundles
open CompactionRebuild CompressionTiers PythonText WordTexts

structure SeedSection where
  sectionType : TierType
  text : String
  refs : List String := []
  tokenCount : ℕ := 0
  deriving DecidableEq

structure SeedBundle where
  seedId : String
  sessionId : String
  sourceBundleId : String
  sourceCheckpointId : Option String
  sections : List SeedSection
  totalTokens : ℕ
  budgets : SeedBundleBudgets
  upToEventId : Option String
  deriving DecidableEq

def truncateToBudget (text : String) (maxTokens : ℕ) : String :=
  if (words text).length ≤ maxTokens then text else joinWords ((words text).take maxTokens)

def cappedText (budgets : SeedBundleBudgets) (sec : SeedSection) : String :=
  truncateToBudget sec.text (budgets.capForTier sec.sectionType)

def keptText (budgets : SeedBundleBudgets) (totalUsed : ℕ) (sec : SeedSection) : String :=
  if budgets.totalMaxTokens < totalUsed + countTokens (cappedText budgets sec)
  then truncateToBudget (cappedText budgets sec) (budgets.totalMaxTokens - totalUsed)
  else cappedText budgets sec

/-- `BudgetArbiter.enforce`, with the tokens that are used so far. It stops when nothing is left. -/
def enforce (budgets : SeedBundleBudgets) : ℕ → List SeedSection → List SeedSection
  | _, [] => []
  | totalUsed, sec :: sections =>
    if budgets.totalMaxTokens < totalUsed + countTokens (cappedText budgets sec) ∧ budgets.totalMaxTokens - totalUsed = 0 then []
    else if strip (keptText budgets totalUsed sec) = "" then enforce budgets totalUsed sections
    else
      { sec with text := keptText budgets totalUsed sec, tokenCount := countTokens (keptText budgets totalUsed sec) } ::
        enforce budgets (totalUsed + countTokens (keptText budgets totalUsed sec)) sections

/-- `entries[:k]`. -/
def sliceTo {α : Type} (k : ℤ) (entries : List α) : List α :=
  entries.take (if k < 0 then entries.length - k.natAbs else k.toNat)

def tierOrder : List TierType := [.decisions, .constraints, .openLoops, .entities, .toolDigests, .failures]

def tierSection (tiers : List TierEntry) (kEntities kTools : ℤ) (tierType : TierType) : Option SeedSection :=
  let entries := tiers.filter fun entry => entry.tierType = tierType
  let entries := match tierType with
    | .entities => sliceTo kEntities entries
    | .toolDigests => sliceTo kTools entries
    | _ => entries
  let text := "\n".intercalate ((entries.filter fun entry => strip entry.text ≠ "").map TierEntry.text)
  if strip text = "" then none
  else some { sectionType := tierType, text, refs := entries.flatMap TierEntry.refs, tokenCount := countTokens text }

def sectionsOf (bundle : CompressionBundle) (kEntities kTools : ℤ) : List SeedSection :=
  (if strip bundle.summaryText = "" then []
    else [{ sectionType := .summary, text := bundle.summaryText, tokenCount := countTokens bundle.summaryText }]) ++
  tierOrder.filterMap (tierSection bundle.tiers kEntities kTools)

def buildSeedFromBundle (bundle : CompressionBundle) (kEntities kTools : ℤ) (budgets : SeedBundleBudgets) (seedId : String) :
    SeedBundle :=
  let sections := enforce budgets 0 (sectionsOf bundle kEntities kTools)
  { seedId
    sessionId := bundle.sessionId
    sourceBundleId := bundle.bundleId
    sourceCheckpointId := bundle.checkpointId
    sections
    totalTokens := (sections.map SeedSection.tokenCount).sum
    budgets
    upToEventId := bundle.upToEventId }

theorem countTokens_truncateToBudget (text : String) (maxTokens : ℕ) :
    countTokens (truncateToBudget text maxTokens) = min maxTokens (countTokens text) := by
  rw [truncateToBudget]
  split
  · next h => exact (min_eq_right h).symm
  · exact countTokens_take text maxTokens

theorem countTokens_keptText {budgets : SeedBundleBudgets} {totalUsed : ℕ} (hused : totalUsed ≤ budgets.totalMaxTokens)
    (sec : SeedSection) :
    countTokens (keptText budgets totalUsed sec) ≤ budgets.capForTier sec.sectionType ∧
      totalUsed + countTokens (keptText budgets totalUsed sec) ≤ budgets.totalMaxTokens := by
  have hcap : countTokens (cappedText budgets sec) ≤ budgets.capForTier sec.sectionType := by
    rw [cappedText, countTokens_truncateToBudget]
    exact min_le_left _ _
  rw [keptText]
  split
  · rw [countTokens_truncateToBudget]
    have hleft := min_le_left (budgets.totalMaxTokens - totalUsed) (countTokens (cappedText budgets sec))
    have hright := min_le_right (budgets.totalMaxTokens - totalUsed) (countTokens (cappedText budgets sec))
    exact ⟨hright.trans hcap, by omega⟩
  · next hfits => exact ⟨hcap, not_lt.mp hfits⟩

/-- The section has the number of its tokens, and fits the cap of its tier. -/
def Fits (budgets : SeedBundleBudgets) (sec : SeedSection) : Prop :=
  sec.tokenCount = countTokens sec.text ∧ countTokens sec.text ≤ budgets.capForTier sec.sectionType

theorem enforce_fits (budgets : SeedBundleBudgets) (sections : List SeedSection) {totalUsed : ℕ}
    (hused : totalUsed ≤ budgets.totalMaxTokens) :
    (∀ sec ∈ enforce budgets totalUsed sections, Fits budgets sec) ∧
      totalUsed + ((enforce budgets totalUsed sections).map SeedSection.tokenCount).sum ≤ budgets.totalMaxTokens := by
  induction sections generalizing totalUsed with
  | nil =>
    rw [enforce]
    exact ⟨by simp, by simpa using hused⟩
  | cons sec sections ih =>
    obtain ⟨hcap, hkept⟩ := countTokens_keptText hused sec
    rw [enforce]
    split
    · exact ⟨by simp, by simpa using hused⟩
    · split
      · exact ih hused
      · obtain ⟨hsections, htotal⟩ := ih hkept
        rw [List.forall_mem_cons, List.map_cons, List.sum_cons, ← Nat.add_assoc]
        dsimp only
        refine ⟨⟨?_, hsections⟩, htotal⟩
        rw [Fits]
        dsimp only
        exact ⟨rfl, hcap⟩

/-- Every seed keeps every section within the cap of its tier, and all of them within the total. -/
structure WithinBudgets (seed : SeedBundle) : Prop where
  counted : ∀ sec ∈ seed.sections, sec.tokenCount = countTokens sec.text
  caps : ∀ sec ∈ seed.sections, countTokens sec.text ≤ seed.budgets.capForTier sec.sectionType
  counts : seed.totalTokens = (seed.sections.map fun sec => countTokens sec.text).sum
  total : seed.totalTokens ≤ seed.budgets.totalMaxTokens

theorem buildSeedFromBundle_withinBudgets (bundle : CompressionBundle) (kEntities kTools : ℤ) (budgets : SeedBundleBudgets)
    (seedId : String) : WithinBudgets (buildSeedFromBundle bundle kEntities kTools budgets seedId) := by
  obtain ⟨hsections, htotal⟩ := enforce_fits budgets (sectionsOf bundle kEntities kTools) (Nat.zero_le budgets.totalMaxTokens)
  rw [Nat.zero_add] at htotal
  rw [buildSeedFromBundle]
  constructor
  all_goals dsimp only
  · exact fun sec hsec => (hsections sec hsec).1
  · exact fun sec hsec => (hsections sec hsec).2
  · exact congrArg List.sum (List.map_congr_left fun sec hsec => (hsections sec hsec).1)
  · exact htotal

end OpenMinion.SeedBundles
