import OpenMinion.TrimLadder

/-!
# Recent windows

`append_recent_window_segments` cuts what the assistant said long ago and drops turns until the window fits. The last
exchange is protected by its indexes, which are computed three times.
-/
namespace OpenMinion.RecentWindows
open ContextPackBuild EvidencePacking ListPositions PythonText SegmentMessages TrimLadder

/-- `map_turn_role`; no letter outside ASCII has one of these names in lower case. -/
def mapTurnRole (role : String) : MessageRole :=
  match (strip role).map Char.toLower with
  | "assistant" => .assistant
  | "system" => .system
  | "tool" => .tool
  | "outbound" => .assistant
  | _ => .user

def isRole (role : MessageRole) (turn : SessionTurn) : Bool := mapTurnRole turn.role = role

/-- `protected_decide_recent_turn_indexes`. -/
def protectedIndexes (purpose : Purpose) (turns : List SessionTurn) : List ℕ :=
  if purpose = .decide then
    match locate (isRole .assistant) turns.reverse with
    | none => []
    | some (after, _) =>
      let idx := turns.length - 1 - after
      if 0 < idx ∧ turns[idx - 1]?.any (isRole .user) then [idx, idx - 1] else [idx]
  else if turns.any (isRole .assistant) then []
  else
    match (List.range turns.length).filter fun idx => turns[idx]?.any (isRole .user) with
    | [] => []
    | first :: others => first :: others.getLast?.toList

def assistantMaxTokens : ℕ := 300

def truncationMarker : String := "[...truncated, full response available in session]\n"

/-- `assistant_tail_for_recent_window`. -/
def assistantTail (purpose : Purpose) (turn : SessionTurn) (preserveFull : Bool) : String :=
  if preserveFull || purpose ≠ .decide || !isRole .assistant turn then turn.content
  else if estimateTokens turn.content ≤ assistantMaxTokens then turn.content
  else
    let content := turn.content.toList
    truncationMarker ++ String.ofList ((content.drop (content.length - assistantMaxTokens * 4)).dropWhile isSpace)

def dedupeCurrentQueryTurns (query : String) (recentTurns : List SessionTurn) : List SessionTurn :=
  let currentQuery := strip query
  recentTurns.rdropWhile fun turn => isRole .user turn && currentQuery ≠ "" && strip turn.content = currentQuery

def windowTokens (window : List (SessionTurn × String)) : ℕ := (window.map fun item => estimateTokens item.2).sum

structure RecentStats where
  totalAvailable : ℕ
  dropped : ℕ
  deriving DecidableEq

/-- `_trim_recent_turns_to_budget`, on the turns with their contents and the count of the drops; every
round that goes on drops a turn. -/
def trimRecentTurns (purpose : Purpose) (recentTurnTokens : ℕ) :
    ℕ → List (SessionTurn × String) × ℕ → List (SessionTurn × String) × ℕ
  | 0, trimmed => trimmed
  | rounds + 1, (window, dropped) =>
    if window ≠ [] ∧ windowTokens window > recentTurnTokens then
      let protectedTurns := protectedIndexes purpose (window.map Prod.fst)
      match (List.range window.length).find? fun idx => idx ∉ protectedTurns with
      | none => (window, dropped)
      | some idx => trimRecentTurns purpose recentTurnTokens rounds (window.eraseIdx idx, dropped + 1)
    else (window, dropped)

def turnSegment (contentHash : String → String) (turn : SessionTurn) (content : String) (pinned : Bool) : PackSegment :=
  makeSegment contentHash ("turn:" ++ turn.turnId) .recentWindow content (mapTurnRole turn.role) pinned

def appendRecentWindowSegments (contentHash : String → String) (purpose : Purpose) (query : String) (recentTurnTokens : ℕ)
    (recentTurns : List SessionTurn) (segments : List PackSegment) : List PackSegment × RecentStats :=
  let recentTurns := dedupeCurrentQueryTurns query recentTurns
  let preserved := protectedIndexes purpose recentTurns
  let contents := recentTurns.zipIdx.map fun item => (item.1, assistantTail purpose item.1 (item.2 ∈ preserved))
  let (window, dropped) := trimRecentTurns purpose recentTurnTokens contents.length (contents, 0)
  let pinned := protectedIndexes purpose (window.map Prod.fst)
  (segments ++ window.zipIdx.map fun item => turnSegment contentHash item.1.1 item.1.2 (item.2 ∈ pinned),
    { totalAvailable := recentTurns.length, dropped })

/-- The turns before the last exchange, the last turn of the assistant with that of the user just before it, and the
turns after it. -/
inductive LastExchange : List SessionTurn → List SessionTurn → List SessionTurn → Prop
  | none {post : List SessionTurn} (hpost : ∀ t ∈ post, isRole .assistant t = false) : LastExchange [] [] post
  | alone {pre post : List SessionTurn} {a : SessionTurn} (ha : isRole .assistant a = true)
      (hpre : ∀ t ∈ pre.getLast?, isRole .user t = false) (hpost : ∀ t ∈ post, isRole .assistant t = false) :
      LastExchange pre [a] post
  | pair {pre post : List SessionTurn} {u a : SessionTurn} (hu : isRole .user u = true) (ha : isRole .assistant a = true)
      (hpost : ∀ t ∈ post, isRole .assistant t = false) : LastExchange pre [u, a] post

theorem LastExchange.suffix {pre exchange post early late : List SessionTurn} (h : LastExchange pre exchange post)
    (hearly : early <:+ pre) (hlate : late <:+ post) : LastExchange early exchange late := by
  cases h with
  | none hpost =>
    rw [List.suffix_nil.mp hearly]
    exact .none fun t ht => hpost t (hlate.subset ht)
  | alone ha hpre hpost =>
    refine .alone ha ?_ fun t ht => hpost t (hlate.subset ht)
    obtain ⟨dropped, rfl⟩ := hearly
    intro t ht
    apply hpre
    rw [List.getLast?_append, Option.mem_def.mp ht]
    rfl
  | pair hu ha hpost => exact .pair hu ha fun t ht => hpost t (hlate.subset ht)

theorem mem_protectedIndexes {pre exchange post : List SessionTurn} (h : LastExchange pre exchange post) (idx : ℕ) :
    idx ∈ protectedIndexes .decide (pre ++ exchange ++ post) ↔ pre.length ≤ idx ∧ idx < pre.length + exchange.length := by
  rw [protectedIndexes, if_pos rfl]
  cases h with
  | none hpost =>
    have hnone : locate (isRole .assistant) (([] : List SessionTurn) ++ [] ++ post).reverse = none := by
      rw [locate_eq_none]
      intro t ht
      exact hpost t (List.mem_reverse.mp ht)
    rw [hnone]
    simp
  | @alone _ _ a ha hpre hpost =>
    have hsplit : (pre ++ [a] ++ post).reverse = post.reverse ++ a :: pre.reverse := by simp
    have hfront : ∀ t ∈ post.reverse, isRole .assistant t = false := fun t ht => hpost t (List.mem_reverse.mp ht)
    have hidx : (pre ++ [a] ++ post).length - 1 - post.reverse.length = pre.length := by
      simp only [List.length_append, List.length_reverse, List.length_singleton]
      omega
    have hbefore : ¬ (0 < pre.length ∧ (pre ++ [a] ++ post)[pre.length - 1]?.any (isRole .user) = true) := by
      intro hboth
      rw [List.append_assoc, List.getElem?_append_left (by omega), ← List.getLast?_eq_getElem?] at hboth
      cases hlast : pre.getLast? with
      | none =>
        rw [hlast] at hboth
        exact Bool.false_ne_true hboth.2
      | some t =>
        rw [hlast] at hboth
        have huser : isRole .user t = true := hboth.2
        rw [hpre t hlast] at huser
        cases huser
    rw [hsplit, locate_append hfront ha]
    dsimp only
    rw [hidx, if_neg hbefore, List.mem_singleton, List.length_singleton]
    omega
  | @pair _ _ u a hu ha hpost =>
    have hsplit : (pre ++ [u, a] ++ post).reverse = post.reverse ++ a :: (pre ++ [u]).reverse := by simp
    have hfront : ∀ t ∈ post.reverse, isRole .assistant t = false := fun t ht => hpost t (List.mem_reverse.mp ht)
    have hidx : (pre ++ [u, a] ++ post).length - 1 - post.reverse.length = pre.length + 1 := by
      simp only [List.length_append, List.length_reverse, List.length_cons, List.length_nil]
      omega
    have hbefore : 0 < pre.length + 1 ∧ (pre ++ [u, a] ++ post)[pre.length + 1 - 1]?.any (isRole .user) = true := by
      refine ⟨Nat.succ_pos _, ?_⟩
      rw [Nat.add_sub_cancel, List.append_assoc, List.getElem?_append_right le_rfl, Nat.sub_self]
      exact hu
    rw [hsplit, locate_append hfront ha]
    dsimp only
    rw [hidx, if_pos hbefore, List.mem_cons, List.mem_singleton, Nat.add_sub_cancel, List.length_cons, List.length_singleton]
    omega

section Indexes
universe u v
variable {α : Type u} {β : Type v}

theorem map_zipIdx_of_forall {f : α → Bool → β} {p : ℕ → Bool} {b : Bool} (xs : List α) (start : ℕ)
    (hp : ∀ idx, start ≤ idx → idx < start + xs.length → p idx = b) :
    (xs.zipIdx start).map (fun item => f item.1 (p item.2)) = xs.map fun x => f x b := by
  induction xs generalizing start with
  | nil => rfl
  | cons x xs ih =>
    rw [List.length_cons] at hp
    rw [List.zipIdx_cons, List.map_cons, List.map_cons, hp start le_rfl (by omega),
      ih (start + 1) fun idx hle hlt => hp idx (by omega) (by omega)]

theorem map_zipIdx_middle {f : α → Bool → β} {p : ℕ → Bool} (front middle back : List α)
    (hp : ∀ idx, p idx = true ↔ front.length ≤ idx ∧ idx < front.length + middle.length) :
    (front ++ middle ++ back).zipIdx.map (fun item => f item.1 (p item.2)) =
      (front.map fun x => f x false) ++ (middle.map fun x => f x true) ++ back.map fun x => f x false := by
  have hout : ∀ idx, ¬ (front.length ≤ idx ∧ idx < front.length + middle.length) → p idx = false := by
    intro idx hidx
    rw [← hp] at hidx
    exact Bool.eq_false_iff.mpr hidx
  rw [List.zipIdx_append, List.zipIdx_append, List.map_append, List.map_append, List.length_append]
  rw [map_zipIdx_of_forall front 0 fun idx _ hlt => hout idx (by omega)]
  rw [map_zipIdx_of_forall middle _ fun idx hle hlt => (hp idx).mpr ⟨by omega, by omega⟩]
  rw [map_zipIdx_of_forall back _ fun idx hle hlt => hout idx (by omega)]

theorem forall₂_append_left {R : α → β → Prop} {xs more : List α} {ys : List β} (h : List.Forall₂ R (xs ++ more) ys) :
    ∃ front back, ys = front ++ back ∧ List.Forall₂ R xs front ∧ List.Forall₂ R more back := by
  induction xs generalizing ys with
  | nil => exact ⟨[], ys, rfl, .nil, h⟩
  | cons x xs ih =>
    cases h with
    | cons hx hrest =>
      obtain ⟨front, back, rfl, hfront, hback⟩ := ih hrest
      exact ⟨_ :: front, back, rfl, .cons hx hfront, hback⟩

end Indexes

def windowOf (early exchange late : List SessionTurn) : List (SessionTurn × String) :=
  (early.map fun t => (t, assistantTail .decide t false)) ++ (exchange.map fun t => (t, assistantTail .decide t true)) ++
    late.map fun t => (t, assistantTail .decide t false)

theorem map_fst_windowOf (early exchange late : List SessionTurn) :
    (windowOf early exchange late).map Prod.fst = early ++ exchange ++ late := by
  have hfst : ∀ (full : Bool) (turns : List SessionTurn),
      (turns.map fun t => (t, assistantTail .decide t full)).map Prod.fst = turns := by
    intro full turns
    rw [List.map_map]
    exact List.map_id turns
  rw [windowOf, List.map_append, List.map_append, hfst, hfst, hfst]

theorem length_windowOf (early exchange late : List SessionTurn) :
    (windowOf early exchange late).length = early.length + exchange.length + late.length := by
  rw [← List.length_map Prod.fst, map_fst_windowOf, List.length_append, List.length_append]

theorem find?_unprotected {early exchange late : List SessionTurn} (h : LastExchange early exchange late) :
    (List.range (windowOf early exchange late).length).find?
        (fun idx => idx ∉ protectedIndexes .decide ((windowOf early exchange late).map Prod.fst)) =
      match early, late with
      | _ :: _, _ => some 0
      | [], _ :: _ => some exchange.length
      | [], [] => none := by
  rw [map_fst_windowOf, length_windowOf]
  simp only [mem_protectedIndexes h]
  cases early with
  | cons t early =>
    rw [List.find?_range_eq_some]
    refine ⟨by simp, by simp, fun j hj => absurd hj (Nat.not_lt_zero j)⟩
  | nil =>
    cases late with
    | cons t late =>
      rw [List.find?_range_eq_some]
      refine ⟨by simp, by simp, ?_⟩
      intro j hj
      simp [hj]
    | nil =>
      rw [List.find?_eq_none]
      intro j hj
      rw [List.mem_range] at hj
      simpa using hj

/-- The trimming drops from the front of what stands around the exchange, until the window fits or
nothing else is left. -/
theorem trimRecentTurns_spec {early exchange late : List SessionTurn} (h : LastExchange early exchange late)
    (recentTurnTokens : ℕ) {rounds : ℕ} (hrounds : early.length + late.length ≤ rounds) (dropped : ℕ) :
    ∃ early' late' dropped', trimRecentTurns .decide recentTurnTokens rounds (windowOf early exchange late, dropped) =
        (windowOf early' exchange late', dropped') ∧ early' <:+ early ∧ late' <:+ late ∧
      (recentTurnTokens < windowTokens (windowOf early' exchange late') → early' = [] ∧ late' = []) := by
  induction rounds generalizing early late dropped with
  | zero =>
    obtain rfl : early = [] := List.length_eq_zero_iff.mp (by omega)
    obtain rfl : late = [] := List.length_eq_zero_iff.mp (by omega)
    exact ⟨[], [], dropped, rfl, List.suffix_refl _, List.suffix_refl _, fun _ => ⟨rfl, rfl⟩⟩
  | succ rounds ih =>
    rw [trimRecentTurns]
    split
    · dsimp only
      rw [find?_unprotected h]
      cases early with
      | cons t early =>
        dsimp only
        have hsuffix : early <:+ t :: early := List.suffix_cons t early
        rw [List.length_cons] at hrounds
        obtain ⟨early', late', dropped', htrim, hearly, hlate, hfits⟩ :=
          ih (h.suffix hsuffix (List.suffix_refl late)) (by omega) (dropped + 1)
        exact ⟨early', late', dropped', htrim, hearly.trans hsuffix, hlate, hfits⟩
      | nil =>
        cases late with
        | cons t late =>
          dsimp only
          have hsuffix : late <:+ t :: late := List.suffix_cons t late
          have herase : (windowOf [] exchange (t :: late)).eraseIdx exchange.length = windowOf [] exchange late := by
            rw [windowOf, List.map_nil, List.nil_append, List.map_cons, eraseIdx_at (List.length_map _)]
            rfl
          rw [List.length_cons] at hrounds
          obtain ⟨early', late', dropped', htrim, hearly, hlate, hfits⟩ :=
            ih (h.suffix (List.suffix_refl []) hsuffix) (by omega) (dropped + 1)
          rw [herase]
          exact ⟨early', late', dropped', htrim, hearly, hlate.trans hsuffix, hfits⟩
        | nil => exact ⟨[], [], dropped, rfl, List.suffix_refl _, List.suffix_refl _, fun _ => ⟨rfl, rfl⟩⟩
    · next hstop =>
      refine ⟨early, late, dropped, rfl, List.suffix_refl _, List.suffix_refl _, ?_⟩
      intro hexceeds
      have hempty : windowOf early exchange late = [] := by
        by_contra hne
        exact hstop ⟨hne, hexceeds⟩
      rw [hempty] at hexceeds
      exact absurd hexceeds (Nat.not_lt_zero _)

variable (contentHash : String → String)

def exchangeSegments (exchange : List SessionTurn) : List PackSegment :=
  exchange.map fun t => turnSegment contentHash t t.content true

def otherSegments (turns : List SessionTurn) : List PackSegment :=
  turns.map fun t => turnSegment contentHash t (assistantTail .decide t false) false

theorem append_decide_window (query : String) (recentTurnTokens : ℕ) (recentTurns : List SessionTurn) (segments : List PackSegment)
    {pre exchange post : List SessionTurn} (hturns : dedupeCurrentQueryTurns query recentTurns = pre ++ exchange ++ post)
    (hlast : LastExchange pre exchange post) :
    ∃ early late, early <:+ pre ∧ late <:+ post ∧
      (appendRecentWindowSegments contentHash .decide query recentTurnTokens recentTurns segments).1 =
        segments ++ (otherSegments contentHash early ++ exchangeSegments contentHash exchange ++ otherSegments contentHash late) ∧
      (recentTurnTokens < windowTokens (windowOf early exchange late) → early = [] ∧ late = []) := by
  have hcontents : (pre ++ exchange ++ post).zipIdx.map (fun item =>
      (item.1, assistantTail .decide item.1 (item.2 ∈ protectedIndexes .decide (pre ++ exchange ++ post)))) =
        windowOf pre exchange post := by
    refine map_zipIdx_middle (f := fun t full => (t, assistantTail .decide t full))
      (p := fun idx => idx ∈ protectedIndexes .decide (pre ++ exchange ++ post)) pre exchange post ?_
    intro idx
    rw [decide_eq_true_eq]
    exact mem_protectedIndexes hlast idx
  have hrounds : pre.length + post.length ≤ (windowOf pre exchange post).length := by
    rw [length_windowOf]
    omega
  obtain ⟨early, late, dropped, htrim, hearly, hlate, hfits⟩ := trimRecentTurns_spec hlast recentTurnTokens hrounds 0
  refine ⟨early, late, hearly, hlate, ?_, hfits⟩
  rw [appendRecentWindowSegments, hturns]
  dsimp only
  rw [hcontents, htrim]
  dsimp only
  rw [map_fst_windowOf]
  congr 1
  rw [windowOf, map_zipIdx_middle (f := fun item : SessionTurn × String => turnSegment contentHash item.1 item.2)
    (p := fun idx => idx ∈ protectedIndexes .decide (early ++ exchange ++ late))]
  · rw [List.map_map, List.map_map, List.map_map]
    rfl
  · intro idx
    rw [decide_eq_true_eq, List.length_map, List.length_map]
    exact mem_protectedIndexes (hlast.suffix hearly hlate) idx

theorem trimmed_exchangeSegments {exchange : List SessionTurn} {after : List PackSegment}
    (h : List.Forall₂ Trimmed (exchangeSegments contentHash exchange) after) : after = exchangeSegments contentHash exchange := by
  induction exchange generalizing after with
  | nil => exact List.forall₂_nil_left_iff.mp h
  | cons t exchange ih =>
    cases h with
    | cons ht hrest =>
      rcases ht with rfl | ⟨hpinned, -, -⟩
      · rw [ih hrest]
        rfl
      · cases hpinned

/-- After the ladder the last exchange is there in full, between what is left in its order of the turns around it.
Before it the window exceeds its budget only where no other turn is left. -/
theorem last_exchange_survives (query : String) (recentTurnTokens : ℕ) (recentTurns : List SessionTurn) (segments more : List PackSegment)
    (totalCap : ℤ) (bucketCaps : List (SegmentBucket × ℤ)) (decisionLog : PackingDecisionLog) (warnings : List String)
    {pre exchange post : List SessionTurn} (hturns : dedupeCurrentQueryTurns query recentTurns = pre ++ exchange ++ post)
    (hlast : LastExchange pre exchange post) :
    let appended := (appendRecentWindowSegments contentHash .decide query recentTurnTokens recentTurns segments).1
    ∃ early late, early <:+ pre ∧ late <:+ post ∧
      appended = segments ++ (otherSegments contentHash early ++ exchangeSegments contentHash exchange ++ otherSegments contentHash late) ∧
      (recentTurnTokens < ((appended.drop segments.length).map fun s => estimateTokens s.content).sum → early = [] ∧ late = []) ∧
      ∃ front back, (applyTrimLadder (appended ++ more) totalCap bucketCaps decisionLog warnings).1 =
          front ++ exchangeSegments contentHash exchange ++ back ∧
        List.Forall₂ Trimmed (segments ++ otherSegments contentHash early) front ∧
        List.Forall₂ Trimmed (otherSegments contentHash late ++ more) back := by
  intro appended
  obtain ⟨early, late, hearly, hlate, happended, hfits⟩ :=
    append_decide_window contentHash query recentTurnTokens recentTurns segments hturns hlast
  change appended = _ at happended
  refine ⟨early, late, hearly, hlate, happended, ?_, ?_⟩
  · have htokens : ((appended.drop segments.length).map fun s => estimateTokens s.content).sum =
        windowTokens (windowOf early exchange late) := by
      rw [happended, List.drop_left, windowTokens, windowOf]
      simp only [otherSegments, exchangeSegments, List.map_append, List.map_map]
      rfl
    rw [htokens]
    exact hfits
  · have hladder := (applyTrimLadder_spec (appended ++ more) totalCap bucketCaps decisionLog warnings).1
    have hsplit : appended ++ more = (segments ++ otherSegments contentHash early) ++ (exchangeSegments contentHash exchange ++
        (otherSegments contentHash late ++ more)) := by
      rw [happended]
      simp only [List.append_assoc]
    generalize (applyTrimLadder (appended ++ more) totalCap bucketCaps decisionLog warnings).1 = after at hladder ⊢
    rw [hsplit] at hladder
    obtain ⟨front, rest, rfl, hfront, hrest⟩ := forall₂_append_left hladder
    obtain ⟨middle, back, rfl, hmiddle, hback⟩ := forall₂_append_left hrest
    refine ⟨front, back, ?_, hfront, hback⟩
    rw [trimmed_exchangeSegments contentHash hmiddle, List.append_assoc]

def greetTurn : SessionTurn := { turnId := "1", role := "user", content := "hello" }
def askTurn : SessionTurn := { turnId := "2", role := "user", content := "what is new" }
def answerTurn : SessionTurn := { turnId := "3", role := "outbound", content := "nothing yet" }
def nextTurn : SessionTurn := { turnId := "4", role := "user", content := " and now " }

/-- The answer to a question survives, before the current query, where the budgets leave room for nothing. -/
theorem last_exchange_survives_answer :
    let appended := (appendRecentWindowSegments id .decide "and now" 1 [greetTurn, askTurn, answerTurn, nextTurn] []).1
    ∃ early late, early <:+ [greetTurn] ∧ late <:+ [] ∧
      appended = [] ++ (otherSegments id early ++ exchangeSegments id [askTurn, answerTurn] ++ otherSegments id late) ∧
      (1 < ((appended.drop ([] : List PackSegment).length).map fun s => estimateTokens s.content).sum → early = [] ∧ late = []) ∧
      ∃ front back, (applyTrimLadder (appended ++ []) 0 [(.recentWindow, 0)] {} []).1 =
          front ++ exchangeSegments id [askTurn, answerTurn] ++ back ∧
        List.Forall₂ Trimmed ([] ++ otherSegments id early) front ∧ List.Forall₂ Trimmed (otherSegments id late ++ []) back := by
  have hturns : dedupeCurrentQueryTurns "and now" [greetTurn, askTurn, answerTurn, nextTurn] =
      [greetTurn] ++ [askTurn, answerTurn] ++ [] := by decide +kernel
  have hlast : LastExchange [greetTurn] [askTurn, answerTurn] [] :=
    .pair (by decide +kernel) (by decide +kernel) fun t ht => (nomatch ht)
  exact last_exchange_survives id "and now" 1 [greetTurn, askTurn, answerTurn, nextTurn] [] [] 0 [(.recentWindow, 0)] {} [] hturns hlast

end OpenMinion.RecentWindows
