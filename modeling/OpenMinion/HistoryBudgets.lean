import Mathlib.Data.Rat.Floor
import OpenMinion.IsoTimestamps
import OpenMinion.PythonText

/-!
# Token-budgeted history

`assemble_budgeted_context` keeps the system messages, drops the oldest others outside a recent tail, and, if the tail
alone is too large, refills from the newest and compacts the first that no longer fits.
-/
namespace OpenMinion.HistoryBudgets
open PythonText IsoTimestamps

structure Message where
  channel : String
  target : String
  body : List Char
  metadata : List (String × String) := []
  stats : Option (List (String × ℤ)) := none
  id : String
  timestamp : DateTime

structure ContextBudgetConfig where
  maxTokens : ℤ := 0
  charsPerToken : ℚ := 4
  minRecentMessages : ℤ := 4

structure ContextBudgetTelemetry where
  estimatedTokensTotal : ℕ := 0
  estimatedTokensSystem : ℕ := 0
  estimatedTokensHistory : ℕ := 0
  messagesBeforeTrim : ℕ := 0
  messagesAfterTrim : ℕ := 0
  trimmedCount : ℕ := 0
  budgetUsedPct : ℚ := 0
  overflow : Bool := false
  budgetChars : ℤ := 0
  maxTokens : ℤ := 0
  budgetSource : String := "count_fallback"

structure BudgetedContext where
  messages : List Message
  telemetry : ContextBudgetTelemetry

def compactedMessagePrefix : List Char := "[context budget compacted message:".toList

def compactedOmissionPrefix : List Char := "[... omitted ".toList

def noteOf (originalChars : ℕ) : List Char :=
  compactedMessagePrefix ++ " original_chars=".toList ++ Nat.toDigits 10 originalChars ++ "]\n".toList

def omissionOf (omitted : ℕ) : List Char :=
  '\n' :: compactedOmissionPrefix ++ Nat.toDigits 10 omitted ++ " chars ...]\n".toList

def compactTextToLimit (text : List Char) (limit : ℕ) : List Char :=
  if limit = 0 then []
  else if text.length ≤ limit then text
  else
    let note := noteOf text.length
    if limit ≤ note.length then (note.take limit).rdropWhile isSpace
    else
      let omission := omissionOf text.length
      let payloadLimit := limit - note.length - omission.length
      if payloadLimit = 0 then ((note ++ omission.dropWhile isSpace).take limit).rdropWhile isSpace
      else
        let headChars := max 1 ((payloadLimit + 1) / 2)
        let tailChars := payloadLimit - headChars
        let omission := omissionOf (text.length - headChars - tailChars)
        let tail := text.drop (text.length - tailChars)
        let compacted := note ++ (text.take headChars).rdropWhile isSpace ++ omission ++ tail.dropWhile isSpace
        (compacted.take limit).rdropWhile isSpace

theorem length_compactTextToLimit (text : List Char) (limit : ℕ) : (compactTextToLimit text limit).length ≤ limit := by
  have hcut (cs : List Char) : ((cs.take limit).rdropWhile isSpace).length ≤ limit := by
    calc ((cs.take limit).rdropWhile isSpace).length ≤ (cs.take limit).length := (List.rdropWhile_prefix _ _).length_le
      _ ≤ limit := List.length_take_le limit cs
  rw [compactTextToLimit]
  split
  · exact Nat.zero_le limit
  split
  · assumption
  dsimp only
  split
  · exact hcut _
  split
  · exact hcut _
  · exact hcut _

section
-- The text of a dictionary under `str`.
variable (str : List (String × String) → String)

def metadataChars (message : Message) : ℕ := if message.metadata = [] then 0 else (str message.metadata).length

def msgChars (message : Message) : ℕ := message.body.length + metadataChars str message

def totalChars (messages : List Message) : ℕ := (messages.map (msgChars str)).sum

@[simp] theorem totalChars_nil : totalChars str [] = 0 := rfl

@[simp] theorem totalChars_cons (message : Message) (messages : List Message) :
    totalChars str (message :: messages) = msgChars str message + totalChars str messages := by
  simp [totalChars]

@[simp] theorem totalChars_append (a b : List Message) :
    totalChars str (a ++ b) = totalChars str a + totalChars str b := by
  simp [totalChars]

@[simp] theorem totalChars_reverse (messages : List Message) : totalChars str messages.reverse = totalChars str messages := by
  simp [totalChars, List.sum_reverse]

theorem totalChars_le_of_suffix {a b : List Message} (h : a <:+ b) : totalChars str a ≤ totalChars str b := by
  obtain ⟨older, rfl⟩ := h
  simp

def compactMessageToCharLimit (message : Message) (maxChars : ℕ) : Option Message :=
  let bodyLimit := maxChars - metadataChars str message
  if bodyLimit = 0 then none
  else
    let compactedBody := compactTextToLimit message.body bodyLimit
    if compactedBody = [] then none
    else some { message with body := compactedBody }

def selectNewestFirst (available : ℕ) : ℕ → List Message → List Message × ℕ
  | _, [] => ([], 0)
  | used, message :: older =>
    let remaining := available - used
    if remaining = 0 then ([], 0)
    else if msgChars str message ≤ remaining then
      let (selected, compacted) := selectNewestFirst available (used + msgChars str message) older
      (message :: selected, compacted)
    else
      match compactMessageToCharLimit str message remaining with
      | some copy => ([copy], 1)
      | none => ([], 0)

def fitRecentHistoryToBudget (systemChars : ℕ) (history : List Message) (budgetChars : ℤ) : List Message × ℕ :=
  let available := (max 0 (budgetChars - systemChars)).toNat
  if available = 0 then ([], 0)
  else
    let (newestFirst, compacted) := selectNewestFirst str available 0 history.reverse
    (newestFirst.reverse, compacted)

def IsCompacted (message copy : Message) : Prop :=
  copy = { message with body := copy.body } ∧ copy.body.length < message.body.length

theorem compactMessageToCharLimit_eq_some {message copy : Message} {limit : ℕ} (hlarge : limit < msgChars str message)
    (h : compactMessageToCharLimit str message limit = some copy) :
    IsCompacted message copy ∧ msgChars str copy ≤ limit := by
  simp only [compactMessageToCharLimit, Option.ite_none_left_eq_some, Option.some.injEq] at h
  obtain ⟨hpos, -, rfl⟩ := h
  have hlen := length_compactTextToLimit message.body (limit - metadataChars str message)
  simp only [msgChars, metadataChars] at hlarge hpos hlen ⊢
  exact ⟨⟨rfl, hlen.trans_lt (by omega)⟩, by omega⟩

/-- The messages before a cut, perhaps followed by a compacted copy of the message after it. -/
structure Selected (available used : ℕ) (newestFirst selected : List Message) (compacted : ℕ) (whole older : List Message) : Prop where
  split : newestFirst = whole ++ older
  kept : selected = whole ∧ compacted = 0 ∨
    ∃ message copy, older.head? = some message ∧ IsCompacted message copy ∧ selected = whole ++ [copy] ∧ compacted = 1
  fits : used + totalChars str selected ≤ available
  full : (∀ message ∈ newestFirst, 0 < msgChars str message) →
    ∀ message ∈ older.head?, available < used + totalChars str whole + msgChars str message

theorem selected_selectNewestFirst {available used : ℕ} (newestFirst : List Message) (hused : used ≤ available) :
    ∃ whole older, Selected str available used newestFirst (selectNewestFirst str available used newestFirst).1
      (selectNewestFirst str available used newestFirst).2 whole older := by
  induction newestFirst generalizing used with
  | nil => exact ⟨[], [], rfl, .inl ⟨rfl, rfl⟩, by simpa [selectNewestFirst] using hused, by simp⟩
  | cons message older ih =>
    simp only [selectNewestFirst]
    split
    · next hnone =>
      refine ⟨[], message :: older, rfl, .inl ⟨rfl, rfl⟩, by simpa using hused, ?_⟩
      rintro hpos m hm
      cases hm
      have := hpos message List.mem_cons_self
      simp only [totalChars_nil]
      omega
    split
    · next hfits =>
      have hroom : used + msgChars str message ≤ available := by omega
      obtain ⟨whole, rest, h⟩ := ih hroom
      refine ⟨message :: whole, rest, by rw [h.split, List.cons_append], ?_, ?_, ?_⟩
      · obtain ⟨hkept, hcount⟩ | ⟨m, copy, hm, hcopy, hkept, hcount⟩ := h.kept
        · exact .inl ⟨congrArg (message :: ·) hkept, hcount⟩
        · exact .inr ⟨m, copy, hm, hcopy, congrArg (message :: ·) hkept, hcount⟩
      · simpa [Nat.add_assoc] using h.fits
      · intro hpos m hm
        have := h.full (fun m hm => hpos m (List.mem_cons_of_mem _ hm)) m hm
        simp only [totalChars_cons]
        omega
    · next hnone hlarge =>
      have hcut : available < used + totalChars str [] + msgChars str message := by
        simp only [totalChars_nil]
        omega
      cases hcompact : compactMessageToCharLimit str message (available - used) with
      | none =>
        refine ⟨[], message :: older, rfl, .inl ⟨rfl, rfl⟩, by simpa using hused, ?_⟩
        rintro - m hm
        cases hm
        exact hcut
      | some copy =>
        obtain ⟨hcopy, hsize⟩ := compactMessageToCharLimit_eq_some str (by omega) hcompact
        refine ⟨[], message :: older, rfl, .inr ⟨message, copy, rfl, hcopy, rfl, rfl⟩, ?_, ?_⟩
        · simp only [totalChars_cons, totalChars_nil]
          omega
        · rintro - m hm
          cases hm
          exact hcut

/-- `int` of an exact number. -/
def toInt (q : ℚ) : ℤ := if 0 ≤ q then ⌊q⌋ else ⌈q⌉

/-- `round` of an exact number: ties go to the even neighbour. -/
def roundHalfEven (q : ℚ) : ℤ :=
  let low := ⌊q⌋
  if q - low < 1 / 2 then low
  else if 1 / 2 < q - low then low + 1
  else if low % 2 = 0 then low else low + 1

def charsToTokens (chars : ℕ) (charsPerToken : ℚ) : ℕ :=
  if charsPerToken ≤ 0 then 0 else (toInt (chars / charsPerToken)).toNat

def usedPct (chars : ℕ) (budgetChars : ℤ) : ℚ := roundHalfEven (chars / budgetChars * 100 * 100) / 100

def dropOldest (systemChars : ℕ) (budgetChars : ℤ) (protectedTail : List Message) : List Message → List Message
  | [] => []
  | message :: remaining =>
    if (systemChars + totalChars str (message :: remaining ++ protectedTail) : ℤ) ≤ budgetChars then message :: remaining
    else dropOldest systemChars budgetChars protectedTail remaining

def trimHistory (systemChars : ℕ) (budgetChars minRecentMessages : ℤ) (historyMessages : List Message) : List Message × ℕ :=
  let minRecent := (max 0 minRecentMessages).toNat
  let cut := historyMessages.length - minRecent
  -- The slice `[:-0]` is empty, as is the tail that remains for a short history.
  let trimable := if minRecent < historyMessages.length ∧ 0 < minRecent then historyMessages.take cut else []
  let protectedTail := if 0 < minRecent then historyMessages.drop cut else historyMessages
  let trimmedHistory := dropOldest str systemChars budgetChars protectedTail trimable ++ protectedTail
  if budgetChars < systemChars + totalChars str trimmedHistory then
    fitRecentHistoryToBudget str systemChars trimmedHistory budgetChars
  else (trimmedHistory, 0)

def assembleBudgetedContext (systemMessages historyMessages : List Message) (budget : ContextBudgetConfig) : BudgetedContext :=
  let isUnlimited := budget.maxTokens ≤ 0
  let budgetChars := if isUnlimited then 0 else toInt (budget.maxTokens * budget.charsPerToken)
  let systemChars := totalChars str systemMessages
  let historyChars := totalChars str historyMessages
  let total := systemChars + historyChars
  let telemetry : ContextBudgetTelemetry :=
    { estimatedTokensTotal := charsToTokens total budget.charsPerToken
      estimatedTokensSystem := charsToTokens systemChars budget.charsPerToken
      estimatedTokensHistory := charsToTokens historyChars budget.charsPerToken
      messagesBeforeTrim := historyMessages.length
      messagesAfterTrim := historyMessages.length
      budgetChars
      maxTokens := budget.maxTokens
      budgetSource := if 0 < budget.maxTokens then "runtime_cap" else "count_fallback" }
  if isUnlimited ∨ (total : ℤ) ≤ budgetChars then
    { messages := systemMessages ++ historyMessages
      telemetry :=
        if ¬ isUnlimited ∧ 0 < budgetChars then { telemetry with budgetUsedPct := usedPct total budgetChars } else telemetry }
  else
    let (trimmedHistory, compactedCount) := trimHistory str systemChars budgetChars budget.minRecentMessages historyMessages
    let totalFinal := systemChars + totalChars str trimmedHistory
    { messages := systemMessages ++ trimmedHistory
      telemetry :=
        { telemetry with
          messagesAfterTrim := trimmedHistory.length
          trimmedCount := historyMessages.length - trimmedHistory.length + compactedCount
          estimatedTokensTotal := charsToTokens totalFinal budget.charsPerToken
          estimatedTokensHistory := charsToTokens (totalChars str trimmedHistory) budget.charsPerToken
          budgetUsedPct := if 0 < budgetChars then usedPct totalFinal budgetChars else telemetry.budgetUsedPct
          overflow := decide (budgetChars < totalFinal) } }

theorem dropOldest_spec (systemChars : ℕ) (budgetChars : ℤ) (protectedTail trimable : List Message) :
    ∃ older, trimable = older ++ dropOldest str systemChars budgetChars protectedTail trimable ∧
      ∀ message ∈ older.getLast?, budgetChars < systemChars + msgChars str message +
        totalChars str (dropOldest str systemChars budgetChars protectedTail trimable ++ protectedTail) := by
  induction trimable with
  | nil => exact ⟨[], rfl, by simp⟩
  | cons message remaining ih =>
    rw [dropOldest]
    split
    · exact ⟨[], rfl, by simp⟩
    · next hlarge =>
      obtain ⟨older, hsplit, hcut⟩ := ih
      refine ⟨message :: older, by rw [List.cons_append, ← hsplit], ?_⟩
      cases older with
      | nil =>
        intro m hm
        obtain rfl : message = m := by simpa using hm
        rw [List.nil_append] at hsplit
        rw [← hsplit]
        simp only [List.cons_append, totalChars_cons] at hlarge
        omega
      | cons first older => simpa using hcut

theorem lt_of_longer {bound : ℤ} {older whole longer : List Message} {systemChars : ℕ}
    (hcut : ∀ message ∈ older.getLast?, bound < systemChars + msgChars str message + totalChars str whole)
    (hsuffix : longer <:+ older ++ whole) (hlength : whole.length < longer.length) :
    bound < systemChars + totalChars str longer := by
  obtain ⟨front, rfl⟩ | hshort := List.suffix_or_suffix_of_suffix (List.suffix_append older whole) hsuffix
  · obtain ⟨before, hbefore⟩ := hsuffix
    rw [← List.append_assoc, List.append_cancel_right_eq] at hbefore
    cases front using List.reverseRecOn with
    | nil => simp at hlength
    | append_singleton front message =>
      have := hcut message (by simp [← hbefore])
      simp only [totalChars_append, totalChars_cons, totalChars_nil] at this ⊢
      omega
  · exact absurd hshort.length_le (by omega)

/-- What the budget leaves of a history: the messages after a cut, perhaps with a compacted copy
of the message before them. -/
structure Trimmed (systemChars : ℕ) (budgetChars : ℤ) (history kept older whole : List Message) : Prop where
  split : history = older ++ whole
  suffix : kept = whole ∨ ∃ message copy, older.getLast? = some message ∧ IsCompacted message copy ∧ kept = copy :: whole
  fits : (systemChars + totalChars str kept : ℤ) ≤ max budgetChars systemChars
  full : (∀ message ∈ history, 0 < msgChars str message) → ∀ longer, longer <:+ history →
    whole.length < longer.length → budgetChars < systemChars + totalChars str longer

theorem trimmed_fitRecentHistoryToBudget (systemChars : ℕ) (history : List Message) (budgetChars : ℤ) :
    ∃ older whole, Trimmed str systemChars budgetChars history
      (fitRecentHistoryToBudget str systemChars history budgetChars).1 older whole := by
  rw [fitRecentHistoryToBudget]
  dsimp only
  split
  · next hnone =>
    refine ⟨history, [], by simp, .inl rfl, by simp, ?_⟩
    intro hpos longer hlonger hlength
    cases longer with
    | nil => simp at hlength
    | cons message longer =>
      have := hpos message (hlonger.mem List.mem_cons_self)
      simp only [totalChars_cons]
      omega
  · have hnone : 0 ≤ (max 0 (budgetChars - systemChars)).toNat := Nat.zero_le _
    obtain ⟨whole, older, h⟩ := selected_selectNewestFirst str history.reverse hnone
    have hsplit : history = older.reverse ++ whole.reverse := by
      rw [← List.reverse_append, ← h.split, List.reverse_reverse]
    refine ⟨older.reverse, whole.reverse, hsplit, ?_, ?_, ?_⟩
    · obtain ⟨hkept, -⟩ | ⟨message, copy, hm, hcopy, hkept, -⟩ := h.kept
      · exact .inl (congrArg List.reverse hkept)
      · exact .inr ⟨message, copy, by rw [List.getLast?_reverse, hm], hcopy, by simp [hkept]⟩
    · have := h.fits
      simp only [totalChars_reverse]
      omega
    · intro hpos longer hlonger hlength
      rw [hsplit] at hlonger
      refine lt_of_longer str ?_ hlonger hlength
      intro message hm
      rw [List.getLast?_reverse] at hm
      have := h.full (fun m hm => hpos m (List.mem_reverse.mp hm)) message hm
      simp only [totalChars_reverse]
      omega

theorem Trimmed.of_tail {systemChars : ℕ} {budgetChars : ℤ} {front tail kept older whole : List Message}
    (h : Trimmed str systemChars budgetChars tail kept older whole) (hlarge : budgetChars < systemChars + totalChars str tail) :
    Trimmed str systemChars budgetChars (front ++ tail) kept (front ++ older) whole where
  split := by rw [h.split, List.append_assoc]
  suffix := by
    obtain hkept | ⟨message, copy, hm, hcopy, hkept⟩ := h.suffix
    · exact .inl hkept
    · exact .inr ⟨message, copy, by simp [hm], hcopy, hkept⟩
  fits := h.fits
  full := by
    intro hpos longer hlonger hlength
    obtain htail | hshort := List.suffix_or_suffix_of_suffix (List.suffix_append front tail) hlonger
    · have := totalChars_le_of_suffix str htail
      omega
    · exact h.full (fun m hm => hpos m (List.mem_append_right front hm)) longer hshort hlength

theorem trimmed_trimHistory (systemChars : ℕ) (budgetChars minRecentMessages : ℤ) (history : List Message) :
    ∃ older whole, Trimmed str systemChars budgetChars history
      (trimHistory str systemChars budgetChars minRecentMessages history).1 older whole := by
  rw [trimHistory]
  generalize hn : (max 0 minRecentMessages).toNat = minRecent
  generalize htrimable : (if minRecent < history.length ∧ 0 < minRecent then
    history.take (history.length - minRecent) else []) = trimable
  generalize htail : (if 0 < minRecent then history.drop (history.length - minRecent) else history) = protectedTail
  have hhistory : history = trimable ++ protectedTail := by
    rw [← htrimable, ← htail]
    by_cases hpos : 0 < minRecent
    · by_cases hlong : minRecent < history.length
      · rw [if_pos ⟨hlong, hpos⟩, if_pos hpos, List.take_append_drop]
      · rw [if_neg (fun h => hlong h.1), if_pos hpos, Nat.sub_eq_zero_of_le (not_lt.mp hlong), List.drop_zero, List.nil_append]
    · rw [if_neg (fun h => hpos h.2), if_neg hpos, List.nil_append]
  obtain ⟨older, hsplit, hcut⟩ := dropOldest_spec str systemChars budgetChars protectedTail trimable
  generalize dropOldest str systemChars budgetChars protectedTail trimable = remaining at hsplit hcut ⊢
  rw [hhistory, hsplit, List.append_assoc]
  split
  · next hlarge =>
    obtain ⟨older', whole, h⟩ := trimmed_fitRecentHistoryToBudget str systemChars (remaining ++ protectedTail) budgetChars
    exact ⟨older ++ older', whole, h.of_tail str hlarge⟩
  · next hfits =>
    exact ⟨older, remaining ++ protectedTail, rfl, .inl rfl, le_max_of_le_left (not_lt.mp hfits),
      fun _ longer hlonger hlength => lt_of_longer str hcut hlonger hlength⟩

/-- What an assembled context owes its inputs: every system message, a suffix of the history of
which the oldest message may be compacted, and the most whole messages that the budget allows. -/
structure Assembled (systemMessages historyMessages : List Message) (budgetChars : ℤ) (result : BudgetedContext)
    (older whole kept : List Message) : Prop where
  split : historyMessages = older ++ whole
  messages : result.messages = systemMessages ++ kept
  suffix : kept = whole ∨ ∃ message copy, older.getLast? = some message ∧ IsCompacted message copy ∧ kept = copy :: whole
  size : (totalChars str result.messages : ℤ) ≤ max budgetChars (totalChars str systemMessages)
  overflow : result.telemetry.overflow = true ↔ budgetChars < totalChars str systemMessages
  full : (∀ message ∈ historyMessages, 0 < msgChars str message) → ∀ longer, longer <:+ historyMessages →
    whole.length < longer.length → budgetChars < totalChars str systemMessages + totalChars str longer

/-- Assembly under a limit is sound and keeps a suffix of the history. -/
theorem assembled_suffix (systemMessages historyMessages : List Message) (budget : ContextBudgetConfig)
    (hmax : 0 < budget.maxTokens) (hrate : 0 < budget.charsPerToken) :
    ∃ older whole kept, Assembled str systemMessages historyMessages ⌊budget.maxTokens * budget.charsPerToken⌋
      (assembleBudgetedContext str systemMessages historyMessages budget) older whole kept := by
  have hlimited : ¬ budget.maxTokens ≤ 0 := not_le.mpr hmax
  have hbudget : toInt (budget.maxTokens * budget.charsPerToken) = ⌊budget.maxTokens * budget.charsPerToken⌋ := by
    rw [toInt, if_pos (mul_nonneg (Int.cast_nonneg hmax.le) hrate.le)]
  simp only [assembleBudgetedContext, hlimited, if_false, hbudget, false_or]
  generalize ⌊budget.maxTokens * budget.charsPerToken⌋ = budgetChars
  split
  · next hfits =>
    refine ⟨[], historyMessages, historyMessages, rfl, rfl, .inl rfl, ?_, ?_, ?_⟩
    · simp only [totalChars_append]
      omega
    · have hnot : ¬ budgetChars < totalChars str systemMessages := by omega
      split <;> simp [hnot]
    · intro _ longer hlonger hlength
      exact absurd hlonger.length_le (not_le.mpr hlength)
  · obtain ⟨older, whole, h⟩ :=
      trimmed_trimHistory str (totalChars str systemMessages) budgetChars budget.minRecentMessages historyMessages
    have hsize := h.fits
    refine ⟨older, whole, _, h.split, rfl, h.suffix, ?_, ?_, h.full⟩
    · simp only [totalChars_append]
      exact_mod_cast hsize
    · simp only [decide_eq_true_eq]
      omega

/-- A question that no longer fits is compacted in front of its answer. -/
theorem assembled_suffix_compacted :
    let question : Message := { channel := "cli", target := "agent", body := "aaaa".toList, id := "1", timestamp := ⟨0, by decide⟩ }
    let answer : Message := { channel := "cli", target := "agent", body := "bb".toList, id := "2", timestamp := ⟨1, by decide⟩ }
    ∃ older whole kept, Assembled (fun _ => "") [] [question, answer] ⌊(5 : ℤ) * (1 : ℚ)⌋
      (assembleBudgetedContext (fun _ => "") [] [question, answer] ⟨5, 1, 4⟩) older whole kept :=
  assembled_suffix (fun _ => "") [] _ ⟨5, 1, 4⟩ (by decide) (by norm_num)
end

end OpenMinion.HistoryBudgets
