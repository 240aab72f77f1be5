import OpenMinion.EvidencePacking
import OpenMinion.KeyedTables
import Mathlib.Data.List.Sort
import Mathlib.Data.Rat.Defs

/-!
# Identity budgets

`apply_identity_budget` cuts every section to its own cap and to what remains of a shared one. Headers, blank lines and
the markers of what was cut come on top.
-/
namespace OpenMinion.IdentityBudgets
open ContextPackBuild EvidencePacking KeyedTables PythonText

/-- What is taken from outside: `str.lower`, and `int(total * ratio)` of floats. -/
structure Platform where
  lower : String → String
  scaled : ℕ → ℚ → ℤ

structure IdentitySubsectionUsage where
  capTokens : ℕ
  usedTokens : ℕ
  truncated : Bool := false
  omittedReason : Option String := none
  deriving DecidableEq

def defaultSectionOrder : List String := ["constraints", "tool_posture", "mission", "responsibilities", "voice", "notes"]

/-- `DEFAULT_IDENTITY_SECTION_CAP_RATIOS`, with the ratio of a section that is not in it. -/
def capRatio : String → ℚ
  | "constraints" => 40 / 100
  | "tool_posture" => 30 / 100
  | "mission" => 40 / 100
  | "responsibilities" => 30 / 100
  | "voice" => 20 / 100
  | "notes" => 10 / 100
  | _ => 25 / 100

inductive TruncateStrategy where
  | sentences
  | bullets
  deriving DecidableEq

structure ResolvedIdentityBudgetConfig where
  totalTokens : ℤ
  sectionOrder : List String
  sectionPriority : List (String × ℤ)
  sectionCaps : List (String × ℤ)
  truncateStrategy : TruncateStrategy

structure IdentityBudgetResult where
  text : String
  capTokens : ℕ
  usedTokens : ℕ
  truncated : Bool
  subsections : List (String × IdentitySubsectionUsage)
  orderingApplied : List String
  unknownSections : List String

structure Identity where
  sections : Option (List (String × String)) := none
  text : String

/-- `re.sub` of every run of the characters by one character. -/
def replaceRuns (replaced : Char → Bool) (replacement : Char) : Bool → List Char → List Char
  | _, [] => []
  | inRun, c :: cs =>
    if replaced c then
      if inRun then replaceRuns replaced replacement true cs else replacement :: replaceRuns replaced replacement true cs
    else c :: replaceRuns replaced replacement false cs

def isNameChar (c : Char) : Bool := (97 ≤ c.toNat && c.toNat ≤ 122) || c.isDigit || c = '_'

/-- `normalize_identity_section_name`. -/
def normalizeSectionName (p : Platform) (raw : String) : String :=
  let cs := replaceRuns (fun c => !isNameChar c) '_' false (p.lower (strip raw)).toList
  String.ofList ((cs.dropWhile fun c => c = '_').rdropWhile fun c => c = '_')

/-- `derive_identity_section_caps`. -/
def deriveSectionCaps (p : Platform) (totalTokens : ℕ) (sectionOrder : List String) : List (String × ℤ) :=
  sectionOrder.map fun name => (name, max 1 (p.scaled totalTokens (capRatio name)))

def isLineBreak (c : Char) : Bool :=
  (10 ≤ c.toNat && c.toNat ≤ 13) || (28 ≤ c.toNat && c.toNat ≤ 30) || c.toNat = 0x85 || c.toNat = 0x2028 || c.toNat = 0x2029

def filledParts (parts : List (List Char)) : List String :=
  (parts.map fun cs => String.ofList (stripChars cs)).filter fun part => part ≠ ""

/-- `splitlines`; an empty line is dropped anyway, so the two characters of a line end may stand apart. -/
def sectionLines (compact : String) : List String := filledParts (compact.toList.splitOnP isLineBreak)

/-- `re.split(r"(?<=[.!?])\s+", …)` on a text with single blanks; the flag says that a mark was just read. -/
def splitSentences : Bool → List Char → List (List Char)
  | _, [] => [[]]
  | afterMark, c :: cs =>
    if afterMark && isSpace c then [] :: splitSentences false cs
    else
      match splitSentences (c = '.' || c = '!' || c = '?') cs with
      | [] => [[c]]
      | sentence :: sentences => (c :: sentence) :: sentences

def sectionSentences (compact : String) : List String :=
  filledParts (splitSentences false (stripChars (replaceRuns isSpace ' ' false compact.toList)))

def keepLines (maxChars : ℕ) : List String → List String → List String
  | kept, [] => kept
  | kept, line :: lines =>
    if (strip ("\n".intercalate (kept ++ [line]))).length > maxChars then kept else keepLines maxChars (kept ++ [line]) lines

def keepSentences (maxChars : ℕ) : String → List String → String
  | kept, [] => kept
  | kept, chunk :: chunks =>
    let candidate := if kept = "" then chunk else strip (kept ++ " " ++ chunk)
    if candidate.length > maxChars then kept else keepSentences maxChars candidate chunks

/-- `_fit_to_budget`, with whether it cut the text. -/
def fitToCap (text : String) (cap : ℕ) : String × Bool :=
  (fitToBudget text cap, if cap = 0 then strip text ≠ "" else (strip text).length > cap * 4)

/-- `fit_identity_section_text`. -/
def fitSectionText (text : String) (cap : ℕ) (strategy : TruncateStrategy) : String × Bool :=
  if cap = 0 then ("", strip text ≠ "")
  else
    let compact := strip text
    let maxChars := cap * 4
    if compact = "" then ("", false)
    else if compact.length ≤ maxChars then (compact, false)
    else
      match strategy with
      | .bullets =>
        let kept := keepLines maxChars [] (sectionLines compact)
        if kept ≠ [] then (strip ("\n".intercalate kept), true) else fitToCap compact cap
      | .sentences =>
        let kept := keepSentences maxChars "" (sectionSentences compact)
        if kept ≠ "" then (kept, true) else fitToCap compact cap

/-- `estimate_tokens(text) if text.strip() else 0`. -/
def filledTokens (text : String) : ℕ := if strip text = "" then 0 else estimateTokens text

def normalizedSections (p : Platform) (identity : Identity) : List (String × String) :=
  (identity.sections.getD []).foldl (fun sections raw =>
    let name := normalizeSectionName p raw.1
    let body := strip raw.2
    if name = "" ∨ body = "" then sections else upsertRow Prod.fst (name, body) sections) []

def defaultConfig (p : Platform) (capTokens : ℕ) : ResolvedIdentityBudgetConfig where
  totalTokens := capTokens
  sectionOrder := defaultSectionOrder
  sectionPriority := []
  sectionCaps := deriveSectionCaps p capTokens defaultSectionOrder
  truncateStrategy := .sentences

def orderIndex (sectionOrder : List String) (name : String) : Option ℕ :=
  ((sectionOrder.zipIdx.filter fun item => item.1 = name).getLast?).map Prod.snd

def implicitPriority (cfg : ResolvedIdentityBudgetConfig) (name : String) : ℤ :=
  match orderIndex cfg.sectionOrder name with
  | none => -1
  | some idx => max 0 (cfg.sectionOrder.length - idx)

def sectionRank (cfg : ResolvedIdentityBudgetConfig) (name : String) : ℤ :=
  -((cfg.sectionPriority.lookup name).getD (implicitPriority cfg name))

def sectionBefore (cfg : ResolvedIdentityBudgetConfig) (a b : String) : Bool :=
  let place := fun name => (orderIndex cfg.sectionOrder name).getD (cfg.sectionOrder.length + 1000)
  sectionRank cfg a < sectionRank cfg b || (sectionRank cfg a = sectionRank cfg b &&
    (place a < place b || (place a = place b && a ≤ b)))

def unknownSections (cfg : ResolvedIdentityBudgetConfig) (sections : List (String × String)) : List String :=
  ((sections.map Prod.fst).filter fun name => name ∉ cfg.sectionOrder).insertionSort fun a b => a ≤ b

def candidateSections (cfg : ResolvedIdentityBudgetConfig) (sections : List (String × String)) : List String :=
  let candidates := (cfg.sectionOrder.filter fun name => name ∈ sections.map Prod.fst) ++ unknownSections cfg sections
  if cfg.sectionPriority = [] then candidates else candidates.insertionSort fun a b => sectionBefore cfg a b = true

/-- The variables of the loop; `combined` has the names and the texts of the sections that are shown. -/
structure Fitting where
  remaining : ℕ
  combined : List (String × String) := []
  subsections : List (String × IdentitySubsectionUsage) := []
  truncatedAny : Bool := false

def Fitting.recordUsage (s : Fitting) (name : String) (usage : IdentitySubsectionUsage) : Fitting :=
  { s with subsections := upsertRow Prod.fst (name, usage) s.subsections }

def cutSection (rawText : String) (effectiveCap : ℕ) (strategy : TruncateStrategy) : String × Bool :=
  let fitted := fitSectionText rawText effectiveCap strategy
  if filledTokens fitted.1 > effectiveCap ∧ effectiveCap > 0 then fitToCap fitted.1 effectiveCap else fitted

def fitSection (p : Platform) (cfg : ResolvedIdentityBudgetConfig) (sections : List (String × String)) (totalCap defaultCap : ℕ)
    (s : Fitting) (name : String) : Fitting :=
  let rawText := (sections.lookup name).getD ""
  let sectionCap := (cfg.sectionCaps.lookup name).getD (((deriveSectionCaps p totalCap cfg.sectionOrder).lookup name).getD defaultCap)
  if s.remaining = 0 then
    s.recordUsage name { capTokens := 0, usedTokens := 0, omittedReason := some "global_cap_exhausted" }
  else
    let effectiveCap := min (min sectionCap.toNat totalCap) s.remaining
    let (fitted, truncated) := cutSection rawText effectiveCap cfg.truncateStrategy
    let usedTokens := filledTokens fitted
    let omittedReason := if strip fitted = "" ∧ strip rawText ≠ "" then some "section_cap_exhausted" else none
    let recorded := s.recordUsage name { capTokens := effectiveCap, usedTokens, truncated, omittedReason }
    { recorded with
      remaining := s.remaining - usedTokens
      combined := if strip fitted = "" then s.combined else s.combined ++ [(name, strip fitted)]
      truncatedAny := s.truncatedAny || truncated }

def sectionText (shown : String × String) : String := "[" ++ String.ofList (shown.1.toList.map Char.toUpper) ++ "]\n" ++ shown.2

/-- `apply_identity_budget` on an identity without sections. -/
def budgetWhole (identity : Identity) (capTokens : ℕ) : IdentityBudgetResult :=
  let (fitted, truncated) := fitToCap identity.text capTokens
  { text := fitted
    capTokens
    usedTokens := filledTokens fitted
    truncated
    subsections := []
    orderingApplied := []
    unknownSections := [] }

/-- `apply_identity_budget` on the sections of an identity. -/
def budgetSections (p : Platform) (identity : Identity) (sections : List (String × String)) (capTokens : ℕ)
    (cfg : ResolvedIdentityBudgetConfig) : IdentityBudgetResult :=
  let totalCap := min capTokens (max 1 cfg.totalTokens).toNat
  let candidates := candidateSections cfg sections
  let defaultCap := max 1 (totalCap / max 1 candidates.length)
  let final := candidates.foldl (fitSection p cfg sections totalCap defaultCap) { remaining := totalCap }
  let joined := strip ("\n\n".intercalate (final.combined.map sectionText))
  let fallback := fitToCap identity.text totalCap
  let text := if joined = "" then fallback.1 else joined
  { text
    capTokens := totalCap
    usedTokens := min (filledTokens text) totalCap
    truncated := if joined = "" then final.truncatedAny || fallback.2 else final.truncatedAny
    subsections := final.subsections
    orderingApplied := candidates
    unknownSections := unknownSections cfg sections }

def applyIdentityBudget (p : Platform) (identity : Identity) (capTokens : ℕ) (cfg : Option ResolvedIdentityBudgetConfig) :
    IdentityBudgetResult :=
  let sections := normalizedSections p identity
  if sections = [] then budgetWhole identity capTokens
  else budgetSections p identity sections capTokens (cfg.getD (defaultConfig p capTokens))

def cutMark : List Char := ['.', '.', '.', '[', 't', 'r', 'u', 'n', 'c', 'a', 't', 'e', 'd', ']']

def Marked (text : String) : Prop := cutMark <:+ text.toList

theorem length_strip_le (text : String) : (strip text).length ≤ text.length := by
  rw [strip, String.length_ofList, stripChars, ← String.length_toList]
  exact (List.rdropWhile_prefix _ _).length_le.trans (List.dropWhile_suffix _).length_le

theorem length_fitToBudget (text : String) (cap : ℕ) :
    (fitToBudget text cap).length ≤ cap * 4 ∨ Marked (fitToBudget text cap) ∧ (fitToBudget text cap).length ≤ cap * 4 + 15 := by
  rw [fitToBudget]
  split
  · exact .inl (Nat.zero_le _)
  · dsimp only
    split
    · next hfits =>
      left
      rwa [String.length_ofList]
    · have hmark : "\n...[truncated]".toList = '\n' :: cutMark := by decide +kernel
      have hlength : "\n...[truncated]".length = 15 := by decide +kernel
      refine .inr ⟨?_, ?_⟩
      · rw [Marked, String.toList_append, hmark]
        exact (List.suffix_cons _ _).trans (List.suffix_append _ _)
      · rw [String.length_append, String.length_ofList, hlength]
        have hcut := (List.rdropWhile_prefix isSpace ((strip text).toList.take (cap * 4))).length_le.trans (List.length_take_le _ _)
        omega

/-- A text fits a cap, or it is marked and is longer by the mark. -/
def FitsOrMarked (text : String) (cap : ℕ) : Prop := text.length ≤ cap * 4 ∨ Marked text ∧ text.length ≤ cap * 4 + 15

theorem fitsOrMarked_fitToCap (text : String) (cap : ℕ) : FitsOrMarked (fitToCap text cap).1 cap := by
  rw [fitToCap]
  exact length_fitToBudget text cap

theorem length_keepLines {maxChars : ℕ} {kept : List String} (lines : List String)
    (h : (strip ("\n".intercalate kept)).length ≤ maxChars) :
    (strip ("\n".intercalate (keepLines maxChars kept lines))).length ≤ maxChars := by
  induction lines generalizing kept with
  | nil => exact h
  | cons line lines ih =>
    rw [keepLines]
    split
    · exact h
    · next hfits => exact ih (not_lt.mp hfits)

theorem length_keepSentences {maxChars : ℕ} {kept : String} (chunks : List String) (h : kept.length ≤ maxChars) :
    (keepSentences maxChars kept chunks).length ≤ maxChars := by
  induction chunks generalizing kept with
  | nil => exact h
  | cons chunk chunks ih =>
    rw [keepSentences]
    generalize (if kept = "" then chunk else strip (kept ++ " " ++ chunk)) = candidate
    split
    · exact h
    · next hfits => exact ih (not_lt.mp hfits)

theorem fitsOrMarked_fitSectionText (text : String) (cap : ℕ) (strategy : TruncateStrategy) :
    FitsOrMarked (fitSectionText text cap strategy).1 cap := by
  rw [fitSectionText]
  split
  · exact .inl (Nat.zero_le _)
  · dsimp only
    split
    · exact .inl (Nat.zero_le _)
    · split
      · next hfits => exact .inl hfits
      · cases strategy with
        | bullets =>
          dsimp only
          split
          · have hnone : (strip ("\n".intercalate [])).length ≤ cap * 4 := by
              have hempty : strip ("\n".intercalate []) = "" := by decide +kernel
              rw [hempty]
              exact Nat.zero_le _
            left
            dsimp only
            exact length_keepLines (sectionLines (strip text)) hnone
          · exact fitsOrMarked_fitToCap (strip text) cap
        | sentences =>
          dsimp only
          split
          · have hnone : "".length ≤ cap * 4 := Nat.zero_le _
            left
            dsimp only
            exact length_keepSentences (sectionSentences (strip text)) hnone
          · exact fitsOrMarked_fitToCap (strip text) cap

theorem fitsOrMarked_cutSection (rawText : String) (effectiveCap : ℕ) (strategy : TruncateStrategy) :
    FitsOrMarked (cutSection rawText effectiveCap strategy).1 effectiveCap := by
  rw [cutSection]
  split
  · exact fitsOrMarked_fitToCap _ effectiveCap
  · exact fitsOrMarked_fitSectionText rawText effectiveCap strategy

theorem stripChars_append_of_getLast {cs mark : List Char} (hmark : mark ≠ []) (hhead : ∀ c ∈ mark, isSpace c = false) :
    mark <:+ stripChars (cs ++ mark) := by
  have hfront : mark <:+ (cs ++ mark).dropWhile isSpace := by
    rw [List.dropWhile_append]
    split
    · cases mark with
      | nil => exact absurd rfl hmark
      | cons c mark =>
        rw [List.dropWhile_cons_of_neg (by simp [hhead c List.mem_cons_self])]
    · exact List.suffix_append _ _
  obtain ⟨front, hsplit⟩ := hfront
  have hlast : ¬ isSpace (mark.getLast hmark) = true := by
    rw [hhead _ (List.getLast_mem hmark)]
    exact Bool.false_ne_true
  rw [stripChars, ← hsplit, List.rdropWhile_eq_self_iff.mpr]
  · exact List.suffix_append _ _
  · intro hne
    rwa [List.getLast_append_of_ne_nil hne hmark]

theorem Marked.strip {text : String} (h : Marked text) : Marked (strip text) := by
  obtain ⟨front, hfront⟩ := h
  rw [Marked, PythonText.strip, String.toList_ofList, ← hfront]
  exact stripChars_append_of_getLast (by decide +kernel) (by simp [cutMark, isSpace])

theorem filledTokens_le {text : String} {cap : ℕ} (h : FitsOrMarked text cap) :
    filledTokens text ≤ cap ∨ Marked (strip text) ∧ filledTokens text ≤ cap + 3 := by
  rw [filledTokens]
  split
  · exact .inl (Nat.zero_le _)
  · next hfilled =>
    have hne : text.length ≠ 0 := by
      intro hzero
      apply hfilled
      rw [String.length_eq_zero_iff.mp hzero]
      decide +kernel
    rw [estimateTokens]
    rcases h with hfits | ⟨hmarked, hlength⟩
    · left
      omega
    · right
      refine ⟨hmarked.strip, ?_⟩
      omega

instance (text : String) : Decidable (Marked text) := inferInstanceAs (Decidable (cutMark <:+ text.toList))

def markExcess (texts : List String) : ℕ := if texts.any fun text => Marked text then 3 else 0

theorem markExcess_of_mem {texts : List String} {text : String} (hmem : text ∈ texts) (hmarked : Marked text) : markExcess texts = 3 :=
  if_pos (List.any_eq_true.mpr ⟨text, hmem, decide_eq_true hmarked⟩)

def bodyTokens (shown : List (String × String)) : ℕ := (shown.map fun s => estimateTokens s.2).sum

/-- What holds in the loop after the names that it went through. -/
structure Within (totalCap : ℕ) (names : List String) (s : Fitting) : Prop where
  order : (s.combined.map Prod.fst).Sublist names
  spent : ∃ spent, bodyTokens s.combined ≤ spent ∧ (0 < s.remaining → spent + s.remaining ≤ totalCap) ∧
    spent ≤ totalCap + markExcess (s.combined.map Prod.snd)

theorem Within.start (totalCap : ℕ) : Within totalCap [] { remaining := totalCap } := by
  refine ⟨.slnil, 0, le_rfl, ?_, Nat.zero_le _⟩
  intro _
  exact (Nat.zero_add totalCap).le

theorem estimateTokens_strip_le {text : String} (hfilled : strip text ≠ "") : estimateTokens (strip text) ≤ filledTokens text := by
  have hlength := length_strip_le text
  rw [filledTokens, if_neg hfilled, estimateTokens, estimateTokens]
  omega

theorem Within.step {totalCap : ℕ} {names : List String} {s : Fitting} (h : Within totalCap names s) (p : Platform)
    (cfg : ResolvedIdentityBudgetConfig) (sections : List (String × String)) (defaultCap : ℕ) (name : String) :
    Within totalCap (names ++ [name]) (fitSection p cfg sections totalCap defaultCap s name) := by
  have hskip : (s.combined.map Prod.fst).Sublist (names ++ [name]) := h.order.trans (List.sublist_append_left _ _)
  rw [fitSection]
  dsimp only
  split
  · exact ⟨hskip, h.spent⟩
  · next hremaining =>
    generalize ((cfg.sectionCaps.lookup name).getD
      (((deriveSectionCaps p totalCap cfg.sectionOrder).lookup name).getD (defaultCap : ℤ))) = sectionCap
    obtain ⟨spent, hbodies, hleft, hspent⟩ := h.spent
    have hleft := hleft (Nat.pos_of_ne_zero hremaining)
    have hused := filledTokens_le
      (fitsOrMarked_cutSection ((sections.lookup name).getD "") (min (min sectionCap.toNat totalCap) s.remaining) cfg.truncateStrategy)
    generalize cutSection ((sections.lookup name).getD "") (min (min sectionCap.toNat totalCap) s.remaining) cfg.truncateStrategy = cut
      at hused
    obtain ⟨fitted, truncated⟩ := cut
    dsimp only at hused ⊢
    rw [Fitting.recordUsage]
    by_cases hblank : strip fitted = ""
    · have hnothing : filledTokens fitted = 0 := if_pos hblank
      refine ⟨?_, spent, ?_, ?_, ?_⟩
      · dsimp only
        rw [if_pos hblank]
        exact hskip
      · dsimp only
        rw [if_pos hblank]
        exact hbodies
      · intro _
        dsimp only
        rw [hnothing]
        exact hleft
      · dsimp only
        rw [if_pos hblank]
        exact hspent
    · refine ⟨?_, spent + filledTokens fitted, ?_, ?_, ?_⟩
      · dsimp only
        rw [if_neg hblank, List.map_append]
        exact h.order.append (List.Sublist.refl _)
      · have hbody := estimateTokens_strip_le hblank
        dsimp only
        rw [if_neg hblank, bodyTokens, List.map_append, List.sum_append]
        rw [bodyTokens] at hbodies
        simp only [List.map_cons, List.map_nil, List.sum_cons, List.sum_nil]
        omega
      · dsimp only
        intro hmore
        omega
      · dsimp only
        rw [if_neg hblank, List.map_append, List.map_cons]
        rcases hused with hfits | ⟨hmarked, hexcess⟩
        · omega
        · rw [markExcess_of_mem (List.mem_append_right _ List.mem_cons_self) hmarked]
          omega

theorem Within.foldl {totalCap : ℕ} {names : List String} {s : Fitting} (h : Within totalCap names s) (p : Platform)
    (cfg : ResolvedIdentityBudgetConfig) (sections : List (String × String)) (defaultCap : ℕ) (candidates : List String) :
    Within totalCap (names ++ candidates) (candidates.foldl (fitSection p cfg sections totalCap defaultCap) s) := by
  induction candidates generalizing names s with
  | nil =>
    rw [List.append_nil]
    exact h
  | cons name candidates ih =>
    have hstep := ih (h.step p cfg sections defaultCap name)
    rwa [List.append_assoc] at hstep

theorem length_sectionText (shown : String × String) :
    (sectionText shown).length ≤ shown.1.length + 6 + 4 * estimateTokens shown.2 := by
  have hbody := four_mul_estimateTokens shown.2
  have hopen : "[".length = 1 := by decide +kernel
  have hclose : "]\n".length = 2 := by decide +kernel
  have hname : (String.ofList (shown.1.toList.map Char.toUpper)).length = shown.1.length := by
    rw [String.length_ofList, List.length_map, String.length_toList]
  rw [sectionText, String.length_append, String.length_append, String.length_append, hname, hopen, hclose]
  omega

def headerChars (shown : List (String × String)) : ℕ := (shown.map fun s => s.1.length + 8).sum

theorem length_joined (shown : List (String × String)) :
    ("\n\n".intercalate (shown.map sectionText)).length ≤ 4 * bodyTokens shown + headerChars shown := by
  have htwo : "\n\n".toList.length = 2 := by decide +kernel
  have hrest : ∀ rest : List (String × String),
      (((rest.map sectionText).map String.toList).map fun w => "\n\n".toList.length + w.length).sum ≤
        4 * bodyTokens rest + headerChars rest := by
    intro rest
    rw [htwo]
    induction rest with
    | nil => exact Nat.zero_le _
    | cons s rest ih =>
      have hs := length_sectionText s
      rw [bodyTokens, headerChars] at ih ⊢
      simp only [List.map_cons, List.sum_cons, String.length_toList] at ih ⊢
      omega
  cases shown with
  | nil => exact Nat.zero_le _
  | cons s rest =>
    have hs := length_sectionText s
    have hall := hrest rest
    rw [← String.length_toList, String.toList_intercalate, List.map_cons, List.map_cons, length_intercalate, String.length_toList]
    rw [bodyTokens, headerChars] at hall ⊢
    simp only [List.map_cons, List.sum_cons] at hall ⊢
    omega

/-- The sections that are shown use the cap up to what the marks of cut texts add, and the text is longer than that by
its headers. -/
structure Bounded (identity : Identity) (r : IdentityBudgetResult) (shown : List (String × String)) : Prop where
  order : (shown.map Prod.fst).Sublist r.orderingApplied
  text : r.text = strip ("\n\n".intercalate (shown.map sectionText)) ∨ shown = [] ∧ r.text = fitToBudget identity.text r.capTokens
  bodies : bodyTokens shown ≤ r.capTokens + markExcess (shown.map Prod.snd)
  estimate : estimateTokens r.text ≤ r.capTokens + markExcess (r.text :: shown.map Prod.snd) + headerChars shown / 4

theorem estimateTokens_fitToBudget (text : String) {cap : ℕ} (hcap : 1 ≤ cap) :
    estimateTokens (fitToBudget text cap) ≤ cap + markExcess [fitToBudget text cap] := by
  rw [estimateTokens]
  rcases length_fitToBudget text cap with hfits | ⟨hmarked, hlength⟩
  · omega
  · rw [markExcess_of_mem List.mem_cons_self hmarked]
    omega

variable (p : Platform) (identity : Identity)

theorem bounded_fitToBudget {r : IdentityBudgetResult} (hcap : 1 ≤ r.capTokens) (htext : r.text = fitToBudget identity.text r.capTokens) :
    Bounded identity r [] := by
  refine ⟨List.nil_sublist _, .inr ⟨rfl, htext⟩, Nat.zero_le _, ?_⟩
  rw [htext]
  exact estimateTokens_fitToBudget identity.text hcap

/-- The result on sections: those that are shown are bounded, and where none is the text is that of the whole. -/
theorem bounded_budgetSections (sections : List (String × String)) {capTokens : ℕ} (hcap : 1 ≤ capTokens)
    (cfg : ResolvedIdentityBudgetConfig) : ∃ shown, Bounded identity (budgetSections p identity sections capTokens cfg) shown := by
  have hstart := Within.start (min capTokens (max 1 cfg.totalTokens).toNat)
  have hfinal := hstart.foldl p cfg sections
    (max 1 (min capTokens (max 1 cfg.totalTokens).toNat / max 1 (candidateSections cfg sections).length)) (candidateSections cfg sections)
  rw [budgetSections]
  have htotal : 1 ≤ min capTokens (max 1 cfg.totalTokens).toNat := by omega
  generalize min capTokens (max 1 cfg.totalTokens).toNat = totalCap at hfinal htotal ⊢
  generalize (candidateSections cfg sections).foldl _ _ = final at hfinal ⊢
  by_cases hblank : strip ("\n\n".intercalate (final.combined.map sectionText)) = ""
  · refine ⟨[], bounded_fitToBudget identity htotal ?_⟩
    dsimp only
    rw [if_pos hblank]
    rfl
  · obtain ⟨spent, hbodies, -, hspent⟩ := hfinal.spent
    refine ⟨final.combined, ?_, .inl ?_, hbodies.trans hspent, ?_⟩
    · exact hfinal.order
    · dsimp only
      rw [if_neg hblank]
    · have hlength := (length_strip_le _).trans (length_joined final.combined)
      have hmarks : markExcess (final.combined.map Prod.snd) ≤
          markExcess (strip ("\n\n".intercalate (final.combined.map sectionText)) :: final.combined.map Prod.snd) := by
        rw [markExcess, markExcess, List.any_cons]
        cases (final.combined.map Prod.snd).any fun text => Marked text with
        | true => rw [Bool.or_true]
        | false => exact Nat.zero_le _
      dsimp only
      rw [if_neg hblank, estimateTokens]
      omega

theorem text_budgetWhole (capTokens : ℕ) : (budgetWhole identity capTokens).text = fitToBudget identity.text capTokens := by
  rw [budgetWhole, fitToCap]

theorem usedTokens_budgetWhole (capTokens : ℕ) :
    (budgetWhole identity capTokens).usedTokens = filledTokens (budgetWhole identity capTokens).text := by
  rw [budgetWhole]

theorem capTokens_budgetSections_le (sections : List (String × String)) (capTokens : ℕ) (cfg : ResolvedIdentityBudgetConfig) :
    (budgetSections p identity sections capTokens cfg).capTokens ≤ capTokens := by
  rw [budgetSections]
  exact min_le_left _ _

theorem usedTokens_budgetSections (sections : List (String × String)) (capTokens : ℕ) (cfg : ResolvedIdentityBudgetConfig) :
    (budgetSections p identity sections capTokens cfg).usedTokens =
      min (filledTokens (budgetSections p identity sections capTokens cfg).text)
        (budgetSections p identity sections capTokens cfg).capTokens := by
  rw [budgetSections]

/-- The result for any identity, cap and configuration: the use is the estimate of the text, at most the
cap where there are sections, and 0 for a blank text. -/
theorem identity_bounded {capTokens : ℕ} (hcap : 1 ≤ capTokens) (cfg : Option ResolvedIdentityBudgetConfig) :
    let r := applyIdentityBudget p identity capTokens cfg
    r.capTokens ≤ capTokens ∧
      r.usedTokens = (if normalizedSections p identity = [] then filledTokens r.text else min (filledTokens r.text) r.capTokens) ∧
      ∃ shown, Bounded identity r shown := by
  intro r
  have hr : r = applyIdentityBudget p identity capTokens cfg := rfl
  rw [applyIdentityBudget] at hr
  by_cases hnone : normalizedSections p identity = []
  · rw [if_pos hnone] at hr ⊢
    rw [hr]
    exact ⟨le_rfl, usedTokens_budgetWhole identity capTokens, [], bounded_fitToBudget identity hcap (text_budgetWhole identity capTokens)⟩
  · rw [if_neg hnone] at hr ⊢
    rw [hr]
    generalize normalizedSections p identity = sections
    generalize cfg.getD (defaultConfig p capTokens) = resolved
    exact ⟨capTokens_budgetSections_le p identity sections capTokens resolved,
      usedTokens_budgetSections p identity sections capTokens resolved, bounded_budgetSections p identity sections hcap resolved⟩

def plainPlatform : Platform where
  lower text := String.ofList (text.toList.map Char.toLower)
  scaled total ratio := (total * ratio).floor

def missionIdentity : Identity := { sections := some [("m", "abcd")], text := "abcd" }

def missionConfig : ResolvedIdentityBudgetConfig where
  totalTokens := 1
  sectionOrder := ["m"]
  sectionPriority := []
  sectionCaps := [("m", 1)]
  truncateStrategy := .sentences

theorem identity_bounded_mission :
    let r := applyIdentityBudget plainPlatform missionIdentity 1 (some missionConfig)
    r.capTokens ≤ 1 ∧
      r.usedTokens =
        (if normalizedSections plainPlatform missionIdentity = [] then filledTokens r.text else min (filledTokens r.text) r.capTokens) ∧
      ∃ shown, Bounded missionIdentity r shown :=
  identity_bounded plainPlatform missionIdentity le_rfl (some missionConfig)

theorem text_mission : (applyIdentityBudget plainPlatform missionIdentity 1 (some missionConfig)).text = "[M]\nabcd" := by
  decide +kernel

/-- The body fits the cap of one token; its header does not. -/
theorem mission_exceeds :
    ¬ (estimateTokens (applyIdentityBudget plainPlatform missionIdentity 1 (some missionConfig)).text ≤
          (applyIdentityBudget plainPlatform missionIdentity 1 (some missionConfig)).capTokens ∧
        (applyIdentityBudget plainPlatform missionIdentity 1 (some missionConfig)).usedTokens =
          estimateTokens (applyIdentityBudget plainPlatform missionIdentity 1 (some missionConfig)).text) := by
  have hcap : (applyIdentityBudget plainPlatform missionIdentity 1 (some missionConfig)).capTokens = 1 := by decide +kernel
  have htext : estimateTokens "[M]\nabcd" = 2 := by decide +kernel
  intro hclaim
  have hestimate := hclaim.1
  rw [text_mission, hcap, htext] at hestimate
  omega

end OpenMinion.IdentityBudgets
