import Mathlib.Data.Int.Order.Basic
import Mathlib.Logic.Function.Basic
import OpenMinion.KeyedTables
import OpenMinion.TransitionRuns

/-!
# Rate limits

The messages of a chat, a user and a session are counted in windows of fixed length. Each call is one transaction and
carries its reading of the clock.
-/
namespace OpenMinion.RateLimits
open KeyedTables TransitionRuns

abbrev RateKey := String × String × ℤ

/-- A row of `cp_rate_limits`. -/
structure RateRow where
  keyType : String
  keyId : String
  windowStart : ℤ
  count : ℕ := 0

def RateRow.key (r : RateRow) : RateKey := (r.keyType, r.keyId, r.windowStart)

/-- The arguments of `increment_rate_limit`, and the seconds that it reads from the clock. -/
structure RateCall where
  keyType : String
  keyId : String
  windowSeconds : ℤ
  limit : ℤ
  now : ℤ

structure RateDecision where
  allowed : Bool
  count : ℕ
  limit : ℤ
  windowStart : ℤ
  windowSeconds : ℤ
  deriving DecidableEq

namespace RateCall

variable (c : RateCall)

def seconds : ℤ := max 1 c.windowSeconds

def windowStart : ℤ := c.now - c.now % c.seconds

def key : RateKey := (c.keyType, c.keyId, c.windowStart)

def decision (count : ℕ) : RateDecision := ⟨count ≤ c.limit, count, c.limit, c.windowStart, c.seconds⟩

/-- The `WHERE` of the rows that a call deletes. -/
def outdates (r : RateRow) : Bool :=
  r.keyType = c.keyType && r.keyId = c.keyId && r.windowStart < c.windowStart - c.seconds * 3

/-- The call deletes no row of this key. -/
def Spares (k : RateKey) : Prop :=
  k.1 = c.keyType → k.2.1 = c.keyId → c.windowStart - c.seconds * 3 ≤ k.2.2

instance (k : RateKey) : Decidable (c.Spares k) := inferInstanceAs (Decidable (_ → _ → _))

end RateCall

def countOf (rows : List RateRow) (k : RateKey) : ℕ := ((lookup RateRow.key k rows).map RateRow.count).getD 0

def incrementRateLimit (rows : List RateRow) (c : RateCall) : RateDecision × List RateRow :=
  let counted := upsertRow RateRow.key ⟨c.keyType, c.keyId, c.windowStart, countOf rows c.key + 1⟩ rows
  (c.decision (countOf counted c.key), deleteWhere c.outdates counted)

/-- `increment_rate_limit` of the store in memory. -/
def incrementInMemory (counts : RateKey → ℕ) (c : RateCall) : RateDecision × (RateKey → ℕ) :=
  let counted := Function.update counts c.key (counts c.key + 1)
  (c.decision (counted c.key), counted)

def callsIn (k : RateKey) (calls : List RateCall) : ℕ := calls.countP fun c => c.key = k

/-- What the calls return when each is decided by the number of calls in its window so far. -/
def decisions (seen : List RateCall) : List RateCall → List RateDecision
  | [] => []
  | c :: rest => c.decision (callsIn c.key seen + 1) :: decisions (seen ++ [c]) rest

theorem callsIn_snoc (k : RateKey) (calls : List RateCall) (c : RateCall) :
    callsIn k (calls ++ [c]) = callsIn k calls + if c.key = k then 1 else 0 := by
  simp [callsIn, List.countP_append, List.countP_singleton]

section Durable

variable {rows : List RateRow} {seen : List RateCall} {c : RateCall}

theorem countOf_upsert (rows : List RateRow) (c : RateCall) (count : ℕ) (k : RateKey) :
    countOf (upsertRow RateRow.key ⟨c.keyType, c.keyId, c.windowStart, count⟩ rows) k =
      if c.key = k then count else countOf rows k := by
  have hkey : RateRow.key ⟨c.keyType, c.keyId, c.windowStart, count⟩ = c.key := rfl
  split
  · next hk =>
    have hself : lookup RateRow.key c.key (upsertRow RateRow.key ⟨c.keyType, c.keyId, c.windowStart, count⟩ rows) =
        some ⟨c.keyType, c.keyId, c.windowStart, count⟩ :=
      hkey ▸ lookup_upsertRow_self (⟨c.keyType, c.keyId, c.windowStart, count⟩ : RateRow) rows
    rw [hk] at hself
    rw [countOf, hself]
    rfl
  · next hk =>
    have hne : k ≠ RateRow.key ⟨c.keyType, c.keyId, c.windowStart, count⟩ := fun heq => hk (heq.trans hkey).symm
    rw [countOf, lookup_upsertRow_of_ne hne]
    rfl

theorem countOf_deleteWhere {k : RateKey} (h : c.Spares k) (rows : List RateRow) :
    countOf (deleteWhere c.outdates rows) k = countOf rows k := by
  have hfind : ∀ r ∈ rows, r.key = k → c.outdates r = false := by
    rintro r - rfl
    rw [RateCall.outdates, Bool.eq_false_iff]
    intro hout
    rw [Bool.and_eq_true, Bool.and_eq_true, decide_eq_true_eq, decide_eq_true_eq, decide_eq_true_eq] at hout
    exact absurd hout.2 (not_lt.mpr (h hout.1.1 hout.1.2))
  rw [countOf, lookup_deleteWhere hfind]
  rfl

/-- The rows count the calls of each window that no call so far has deleted. -/
def Counted (seen : List RateCall) (rows : List RateRow) : Prop :=
  ∀ k, (∀ b ∈ seen, b.Spares k) → countOf rows k = callsIn k seen

theorem counted_step (h : Counted seen rows) : Counted (seen ++ [c]) (incrementRateLimit rows c).2 := by
  intro k hspared
  have hseen : ∀ b ∈ seen, b.Spares k := fun b hb => hspared b (List.mem_append_left _ hb)
  have hc : c.Spares k := hspared c (List.mem_append_right _ (List.mem_singleton_self c))
  rw [incrementRateLimit, countOf_deleteWhere hc, countOf_upsert, callsIn_snoc]
  split
  · next hk => rw [hk, h k hseen]
  · exact h k hseen

theorem durable_decisions (h : Counted seen rows) {calls : List RateCall}
    (hseen : ∀ b ∈ seen, ∀ c ∈ calls, b.Spares c.key) (hcalls : calls.Pairwise fun b c => b.Spares c.key) :
    outcomes incrementRateLimit rows calls = decisions seen calls := by
  induction calls generalizing seen rows with
  | nil => rfl
  | cons c calls ih =>
    obtain ⟨hfirst, hrest⟩ := List.pairwise_cons.mp hcalls
    have hcount : countOf rows c.key = callsIn c.key seen := h c.key fun b hb => hseen b hb c List.mem_cons_self
    rw [outcomes, decisions, ih (counted_step h) ?_ hrest]
    · rw [incrementRateLimit, countOf_upsert, if_pos rfl, hcount]
    · intro b hb d hd
      rcases List.mem_append.mp hb with hb | hb
      · exact hseen b hb d (List.mem_cons_of_mem c hd)
      · rw [List.mem_singleton.mp hb]
        exact hfirst d hd

end Durable

theorem inMemory_decisions {seen : List RateCall} {counts : RateKey → ℕ} (h : ∀ k, counts k = callsIn k seen)
    (calls : List RateCall) : outcomes incrementInMemory counts calls = decisions seen calls := by
  induction calls generalizing seen counts with
  | nil => rfl
  | cons c calls ih =>
    have hcounts : ∀ k, Function.update counts c.key (counts c.key + 1) k = callsIn k (seen ++ [c]) := by
      intro k
      rw [callsIn_snoc, Function.update_apply]
      by_cases hk : c.key = k
      · rw [if_pos hk.symm, if_pos hk, h, hk]
      · rw [if_neg fun heq => hk heq.symm, if_neg hk, h, Nat.add_zero]
    rw [outcomes, decisions, incrementInMemory, ih hcounts]
    simp [h]

/-- The stores decide alike while no call comes after one that deletes the row of its window. -/
theorem stores_agree {calls : List RateCall} (h : calls.Pairwise fun b c => b.Spares c.key) :
    outcomes incrementRateLimit [] calls = outcomes incrementInMemory (fun _ => 0) calls := by
  have hdurable : outcomes incrementRateLimit [] calls = decisions [] calls :=
    durable_decisions (fun _ _ => rfl) (fun _ hb => absurd hb List.not_mem_nil) h
  exact hdurable.trans (inMemory_decisions (fun _ => rfl) calls).symm

/-- The calls of a window that are allowed. -/
def allowedIn (k : RateKey) (calls : List RateCall) (out : List RateDecision) : ℕ :=
  (calls.zip out).countP fun p => p.1.key = k && p.2.allowed

theorem allowedIn_cons (k : RateKey) (c : RateCall) (calls : List RateCall) (d : RateDecision) (out : List RateDecision) :
    allowedIn k (c :: calls) (d :: out) = allowedIn k calls out + if c.key = k ∧ d.allowed = true then 1 else 0 := by
  simp [allowedIn, List.countP_cons]

theorem allowedIn_decisions {k : RateKey} {limit : ℕ} {calls : List RateCall}
    (h : ∀ c ∈ calls, c.key = k → c.limit = limit) (seen : List RateCall) :
    allowedIn k calls (decisions seen calls) + min limit (callsIn k seen) = min limit (callsIn k seen + callsIn k calls) := by
  induction calls generalizing seen with
  | nil => simp [allowedIn, callsIn]
  | cons c calls ih =>
    have hrest := ih (fun d hd => h d (List.mem_cons_of_mem c hd)) (seen ++ [c])
    have hcalls : callsIn k (c :: calls) = callsIn k calls + if c.key = k then 1 else 0 := by
      simp [callsIn, List.countP_cons]
    rw [callsIn_snoc] at hrest
    rw [decisions, allowedIn_cons, hcalls]
    by_cases hk : c.key = k
    · have hallowed : (c.decision (callsIn c.key seen + 1)).allowed = true ↔ callsIn k seen + 1 ≤ limit := by
        rw [RateCall.decision, decide_eq_true_eq, h c List.mem_cons_self hk, hk]
        exact Int.ofNat_le
      simp only [hk, true_and, if_true] at hrest ⊢
      rw [hk] at hallowed
      by_cases hle : callsIn k seen + 1 ≤ limit
      · rw [if_pos (hallowed.mpr hle)]
        omega
      · rw [if_neg fun hd => hle (hallowed.mp hd)]
        omega
    · simp only [hk, false_and, if_false] at hrest ⊢
      omega

theorem getElem?_decisions (seen pre : List RateCall) (c : RateCall) (post : List RateCall) :
    (decisions seen (pre ++ c :: post))[pre.length]? = some (c.decision (callsIn c.key (seen ++ pre) + 1)) := by
  induction pre generalizing seen with
  | nil => simp [decisions]
  | cons b pre ih =>
    have hrest := ih (seen ++ [b])
    rw [List.append_assoc, List.singleton_append] at hrest
    rw [List.cons_append, decisions, List.length_cons, List.getElem?_cons_succ, hrest]

/-- The durable store allows the first calls of a window up to the limit and no others, if no call comes after one
that deletes its window. -/
theorem durable_exact {calls : List RateCall} (h : calls.Pairwise fun b c => b.Spares c.key) :
    (∀ pre c post, calls = pre ++ c :: post →
      (outcomes incrementRateLimit [] calls)[pre.length]? = some (c.decision (callsIn c.key pre + 1))) ∧
    ∀ (k : RateKey) (limit : ℕ), (∀ c ∈ calls, c.key = k → c.limit = limit) →
      allowedIn k calls (outcomes incrementRateLimit [] calls) = min limit (callsIn k calls) := by
  have hdurable : outcomes incrementRateLimit [] calls = decisions [] calls :=
    durable_decisions (fun _ _ => rfl) (fun _ hb => absurd hb List.not_mem_nil) h
  rw [hdurable]
  constructor
  · rintro pre c post rfl
    exact getElem?_decisions [] pre c post
  · intro k limit hlimit
    have hallowed := allowedIn_decisions hlimit []
    simpa [callsIn] using hallowed

/-- With one length of the windows and readings in order no call deletes the row of a later one. -/
theorem spares_of_le {b c : RateCall} (hseconds : b.seconds = c.seconds) (hnow : b.now ≤ c.now) : b.Spares c.key := by
  intro _ _
  have hpos : 0 < c.seconds := by
    rw [RateCall.seconds]
    omega
  have hb := Int.emod_nonneg b.now hpos.ne'
  have hc := Int.emod_lt_of_pos c.now hpos
  change b.windowStart - b.seconds * 3 ≤ c.windowStart
  rw [RateCall.windowStart, RateCall.windowStart, hseconds]
  omega

/-- Three messages of a chat in a minute, and one in the next. -/
def fourMessages : List RateCall := [0, 20, 40, 60].map fun now => ⟨"chat_id", "chat", 60, 2, now⟩

theorem fourMessages_spared : fourMessages.Pairwise fun b c => b.Spares c.key := by
  have horder : ([0, 20, 40, 60] : List ℤ).Pairwise (· ≤ ·) := by decide
  exact horder.map _ fun _ _ hle => spares_of_le rfl hle

theorem stores_agree_fourMessages :
    outcomes incrementRateLimit [] fourMessages = outcomes incrementInMemory (fun _ => 0) fourMessages :=
  stores_agree fourMessages_spared

theorem durable_exact_fourMessages :
    allowedIn ("chat_id", "chat", 0) fourMessages (outcomes incrementRateLimit [] fourMessages) = 2 := by
  refine ((durable_exact fourMessages_spared).2 ("chat_id", "chat", 0) 2 ?_).trans (by decide)
  decide

end OpenMinion.RateLimits
