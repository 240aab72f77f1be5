import Mathlib.Order.Defs.LinearOrder
import OpenMinion.KeyedTables

/-!
# Queues of claimed rows

A worker claims the oldest row that is due, which counts an attempt, and reports how it went. Reports name a row only
by its identifier and may come when another worker has the row; a claim without one may be taken back.
-/
namespace OpenMinion.ClaimQueues
open KeyedTables

inductive QueueStatus where
  | fresh
  | held
  | failed
  | completed
  | dead
  deriving DecidableEq

structure QueueRow (Id Message Time : Type) where
  id : Id
  message : Message
  arrivedAt : Time
  status : QueueStatus := .fresh
  error : Option String := none
  attempts : ℕ := 0
  nextAttemptAt : Time
  lockedAt : Option Time := none
  lockOwner : Option String := none
  deriving DecidableEq

variable {Id Message Time : Type} [DecidableEq Id] [LinearOrder Time]

def isOpen (r : QueueRow Id Message Time) : Bool := r.status = .fresh || r.status = .failed

def isSettled (r : QueueRow Id Message Time) : Bool := r.status = .completed || r.status = .dead

def isDue (now : Time) (r : QueueRow Id Message Time) : Bool := isOpen r && r.nextAttemptAt ≤ now

def isStale (before : Time) (r : QueueRow Id Message Time) : Bool :=
  r.status = .held && r.lockedAt.any fun lockedAt => lockedAt < before

def release (r : QueueRow Id Message Time) : QueueRow Id Message Time :=
  { r with status := .fresh, lockOwner := none, lockedAt := none }

def reclaim (before : Time) (rows : List (QueueRow Id Message Time)) : List (QueueRow Id Message Time) :=
  updateWhere (isStale before) release rows

def hold (owner : String) (now : Time) (r : QueueRow Id Message Time) : QueueRow Id Message Time :=
  { r with status := .held, attempts := r.attempts + 1, lockOwner := some owner, lockedAt := some now }

def oldestDue (now : Time) (rows : List (QueueRow Id Message Time)) : List (QueueRow Id Message Time) :=
  (rows.filter (isDue now)).filter fun r => (rows.filter (isDue now)).all fun x => r.arrivedAt ≤ x.arrivedAt

/-- The oldest row that is due; among rows that arrived at the same time `tie` decides. -/
def nextDue (now : Time) (tie : ℕ) (rows : List (QueueRow Id Message Time)) : Option (QueueRow Id Message Time) :=
  (oldestDue now rows)[tie % (oldestDue now rows).length]?

def takeNext (owner : String) (now : Time) (tie : ℕ) (rows : List (QueueRow Id Message Time)) :
    Option (QueueRow Id Message Time) × List (QueueRow Id Message Time) :=
  match nextDue now tie rows with
  | none => (none, rows)
  | some r =>
    let p := fun x : QueueRow Id Message Time => x.id = r.id && isOpen x
    let rows' := updateWhere p (hold owner now) rows
    (if (rows.filter p).length = 1 then lookup QueueRow.id r.id rows' else none, rows')

def claim (owner : String) (now before : Time) (tie : ℕ) (rows : List (QueueRow Id Message Time)) :
    Option (QueueRow Id Message Time) × List (QueueRow Id Message Time) :=
  takeNext owner now tie (reclaim before rows)

def asCompleted (r : QueueRow Id Message Time) : QueueRow Id Message Time :=
  { r with status := .completed, lockOwner := none, lockedAt := none, error := none }

def asFailed (error : String) (r : QueueRow Id Message Time) : QueueRow Id Message Time :=
  { r with status := .failed, error := some error, lockOwner := none, lockedAt := none }

def asDead (error : String) (r : QueueRow Id Message Time) : QueueRow Id Message Time :=
  { r with status := .dead, error := some error, lockOwner := none, lockedAt := none }

def asPostponed (error : String) (nextAttemptAt : Time) (r : QueueRow Id Message Time) : QueueRow Id Message Time :=
  { r with status := .failed, nextAttemptAt := nextAttemptAt, error := some error, lockOwner := none, lockedAt := none }

def complete (id : Id) (rows : List (QueueRow Id Message Time)) : List (QueueRow Id Message Time) :=
  updateWhere (fun r => r.id = id) asCompleted rows

def fail (id : Id) (error : String) (rows : List (QueueRow Id Message Time)) : List (QueueRow Id Message Time) :=
  updateWhere (fun r => r.id = id) (asFailed error) rows

def bury (id : Id) (error : String) (rows : List (QueueRow Id Message Time)) : List (QueueRow Id Message Time) :=
  updateWhere (fun r => r.id = id) (asDead error) rows

def postpone (id : Id) (error : String) (nextAttemptAt : Time) (rows : List (QueueRow Id Message Time)) :
    List (QueueRow Id Message Time) :=
  updateWhere (fun r => r.id = id) (asPostponed error nextAttemptAt) rows

def attemptsOf (id : Id) (rows : List (QueueRow Id Message Time)) : ℕ :=
  ((lookup QueueRow.id id rows).map QueueRow.attempts).getD 0

def arrival (id : Id) (message : Message) (now : Time) : QueueRow Id Message Time :=
  { id := id, message := message, arrivedAt := now, nextAttemptAt := now }

inductive QueueOp (Id Message Time : Type) where
  | idle
  | enqueue (id : Id) (message : Message) (now : Time)
  | claim (owner : String) (now before : Time) (tie : ℕ)
  | complete (id : Id)
  | fail (id : Id) (error : String)
  | bury (id : Id) (error : String)
  | postpone (id : Id) (error : String) (nextAttemptAt : Time)

def QueueOp.apply (rows : List (QueueRow Id Message Time)) :
    QueueOp Id Message Time → Option (QueueRow Id Message Time) × List (QueueRow Id Message Time)
  | .idle => (none, rows)
  | .enqueue id message now => (none, upsertRow QueueRow.id (arrival id message now) rows)
  | .claim owner now before tie => ClaimQueues.claim owner now before tie rows
  | .complete id => (none, ClaimQueues.complete id rows)
  | .fail id error => (none, ClaimQueues.fail id error rows)
  | .bury id error => (none, ClaimQueues.bury id error rows)
  | .postpone id error nextAttemptAt => (none, ClaimQueues.postpone id error nextAttemptAt rows)

section Claims

variable {rows : List (QueueRow Id Message Time)}

omit [DecidableEq Id] in
theorem uniqueId_reclaim (h : UniqueKey QueueRow.id rows) (before : Time) :
    UniqueKey QueueRow.id (reclaim before rows) :=
  h.updateWhere fun _ _ => rfl

omit [DecidableEq Id] in
theorem nextDue_some {now : Time} {tie : ℕ} {r : QueueRow Id Message Time} (h : nextDue now tie rows = some r) :
    r ∈ rows ∧ isDue now r = true := by
  have hmem : r ∈ oldestDue now rows := List.mem_of_getElem? h
  rw [oldestDue, List.mem_filter, List.mem_filter] at hmem
  exact hmem.1

omit [DecidableEq Id] in
theorem nextDue_tie (h : UniqueKey QueueRow.arrivedAt rows) (now : Time) (tie tie' : ℕ) :
    nextDue now tie rows = nextDue now tie' rows := by
  have hle : (oldestDue now rows).length ≤ 1 := by
    cases hrows : oldestDue now rows with
    | nil => exact Nat.zero_le 1
    | cons r rest =>
      rw [← hrows]
      have hdue : UniqueKey QueueRow.arrivedAt (rows.filter (isDue now)) := h.sublist (List.filter_sublist.map _)
      have hr : r ∈ oldestDue now rows := hrows ▸ List.mem_cons_self
      rw [oldestDue, List.mem_filter, List.all_eq_true] at hr
      apply hdue.length_filter_le_one
      intro x hx hfirst
      have hxr : x.arrivedAt ≤ r.arrivedAt := of_decide_eq_true (List.all_eq_true.mp hfirst r hr.1)
      have hrx : r.arrivedAt ≤ x.arrivedAt := of_decide_eq_true (hr.2 x hx)
      exact le_antisymm hxr hrx
  have hmod : ∀ n : ℕ, (oldestDue now rows)[n % (oldestDue now rows).length]? = (oldestDue now rows)[0]? := by
    intro n
    cases hlength : (oldestDue now rows).length with
    | zero => simp [List.length_eq_zero_iff.mp hlength]
    | succ k =>
      have hone : k + 1 = 1 := by omega
      rw [hone, Nat.mod_one]
  rw [nextDue, nextDue, hmod, hmod]

omit [LinearOrder Time] in
private theorem updateWhere_id_and (h : UniqueKey QueueRow.id rows) {r : QueueRow Id Message Time} (hr : r ∈ rows)
    {p : QueueRow Id Message Time → Bool} (hp : p r = true) (f : QueueRow Id Message Time → QueueRow Id Message Time) :
    updateWhere (fun x => x.id = r.id && p x) f rows = updateWhere (fun x => x.id = r.id) f rows := by
  apply List.map_congr_left
  intro x hx
  by_cases hid : x.id = r.id
  · have hxr : x = r := h.eq_of_key_eq hx hr hid
    simp [hxr, hp]
  · simp [hid]

theorem takeNext_eq (h : UniqueKey QueueRow.id rows) (owner : String) (now : Time) (tie : ℕ) :
    takeNext owner now tie rows = match nextDue now tie rows with
      | none => (none, rows)
      | some r => (some (hold owner now r), updateWhere (fun x => x.id = r.id) (hold owner now) rows) := by
  rw [takeNext]
  cases hnext : nextDue now tie rows with
  | none => rfl
  | some r =>
    obtain ⟨hr, hdue⟩ := nextDue_some hnext
    have hopen : isOpen r = true := (Bool.and_eq_true_iff.mp hdue).1
    have hone : (rows.filter fun x => x.id = r.id && isOpen x).length = 1 := by
      have hle : (rows.filter fun x => x.id = r.id && isOpen x).length ≤ 1 :=
        h.length_filter_le_one fun x _ hx => of_decide_eq_true (Bool.and_eq_true_iff.mp hx).1
      have hmem : r ∈ rows.filter fun x => x.id = r.id && isOpen x := List.mem_filter.mpr ⟨hr, by simp [hopen]⟩
      have hpos := List.length_pos_of_mem hmem
      omega
    have hlookup : lookup QueueRow.id r.id rows = some r := h.lookup_eq_some_iff.mpr ⟨hr, rfl⟩
    have hkeep : ∀ x : QueueRow Id Message Time, decide (x.id = r.id) = true → (hold owner now x).id = x.id :=
      fun _ _ => rfl
    dsimp only
    rw [if_pos hone, updateWhere_id_and h hr hopen, lookup_updateWhere hkeep, hlookup]
    simp

theorem claim_cases (h : UniqueKey QueueRow.id rows) (owner : String) (now before : Time) (tie : ℕ) :
    claim owner now before tie rows = (none, reclaim before rows) ∨
    ∃ r ∈ reclaim before rows, isOpen r = true ∧ claim owner now before tie rows =
      (some (hold owner now r), updateWhere (fun x => x.id = r.id) (hold owner now) (reclaim before rows)) := by
  rw [claim, takeNext_eq (uniqueId_reclaim h before)]
  cases hnext : nextDue now tie (reclaim before rows) with
  | none => exact .inl rfl
  | some r =>
    obtain ⟨hr, hdue⟩ := nextDue_some hnext
    exact .inr ⟨r, hr, (Bool.and_eq_true_iff.mp hdue).1, rfl⟩

theorem uniqueId_apply (h : UniqueKey QueueRow.id rows) (op : QueueOp Id Message Time) :
    UniqueKey QueueRow.id (op.apply rows).2 := by
  cases op with
  | idle => exact h
  | enqueue id message now => exact h.upsertRow (arrival id message now)
  | claim owner now before tie =>
    have hreclaim := uniqueId_reclaim h before
    rcases claim_cases h owner now before tie with heq | ⟨r, -, -, heq⟩
    · rw [QueueOp.apply, heq]
      exact hreclaim
    · rw [QueueOp.apply, heq]
      exact hreclaim.updateWhere fun _ _ => rfl
  | complete id => exact h.updateWhere fun _ _ => rfl
  | fail id error => exact h.updateWhere fun _ _ => rfl
  | bury id error => exact h.updateWhere fun _ _ => rfl
  | postpone id error nextAttemptAt => exact h.updateWhere fun _ _ => rfl

end Claims

def settledIn (id : Id) (rows : List (QueueRow Id Message Time)) : Bool :=
  (lookup QueueRow.id id rows).any isSettled

/-- The operation makes a settled row claimable: the message arrives again, or a failure of it is
reported. -/
def reopens (rows : List (QueueRow Id Message Time)) : QueueOp Id Message Time → Bool
  | .enqueue id _ _ => settledIn id rows
  | .fail id _ => settledIn id rows
  | .postpone id _ _ => settledIn id rows
  | _ => false

section Settled

variable {rows : List (QueueRow Id Message Time)} {id : Id}

omit [LinearOrder Time] in
theorem settledIn_updateWhere {p : QueueRow Id Message Time → Bool}
    {f : QueueRow Id Message Time → QueueRow Id Message Time} (hid : ∀ r, p r = true → (f r).id = r.id)
    (hf : ∀ r ∈ rows, r.id = id → p r = true → isSettled r = true → isSettled (f r) = true)
    (h : settledIn id rows = true) : settledIn id (updateWhere p f rows) = true := by
  rw [settledIn, lookup_updateWhere hid]
  cases hl : lookup QueueRow.id id rows with
  | none =>
    rw [settledIn, hl] at h
    cases h
  | some r =>
    obtain ⟨hr, hrid⟩ := lookup_some hl
    have hsettled : isSettled r = true := by simpa [settledIn, hl] using h
    by_cases hp : p r = true
    · simpa [hp] using hf r hr hrid hp hsettled
    · simpa [hp] using hsettled

omit [DecidableEq Id] in
theorem not_isSettled_of_isStale {before : Time} {r : QueueRow Id Message Time} (h : isStale before r = true) :
    isSettled r = false := by
  have hheld : r.status = .held := of_decide_eq_true (Bool.and_eq_true_iff.mp h).1
  simp [isSettled, hheld]

omit [DecidableEq Id] [LinearOrder Time] in
theorem not_isSettled_of_isOpen {r : QueueRow Id Message Time} (h : isOpen r = true) : isSettled r = false := by
  have hopen : r.status = .fresh ∨ r.status = .failed := by simpa [isOpen] using h
  rcases hopen with hs | hs
  · simp [isSettled, hs]
  · simp [isSettled, hs]

theorem settledIn_reclaim (before : Time) (h : settledIn id rows = true) :
    settledIn id (reclaim before rows) = true := by
  refine settledIn_updateWhere (fun _ _ => rfl) ?_ h
  intro r _ _ hstale hsettled
  rw [not_isSettled_of_isStale hstale] at hsettled
  cases hsettled

omit [LinearOrder Time] in
private theorem ne_of_settledIn (hu : UniqueKey QueueRow.id rows) (h : settledIn id rows = true)
    {r : QueueRow Id Message Time} (hr : r ∈ rows) (hopen : isOpen r = true) : r.id ≠ id := by
  rintro rfl
  have hl : lookup QueueRow.id r.id rows = some r := hu.lookup_eq_some_iff.mpr ⟨hr, rfl⟩
  have hsettled : isSettled r = true := by simpa [settledIn, hl] using h
  rw [not_isSettled_of_isOpen hopen] at hsettled
  cases hsettled

theorem claim_ne_settled (hu : UniqueKey QueueRow.id rows) (h : settledIn id rows = true) (owner : String)
    (now before : Time) (tie : ℕ) {c : QueueRow Id Message Time} (hc : (claim owner now before tie rows).1 = some c) :
    c.id ≠ id := by
  rcases claim_cases hu owner now before tie with heq | ⟨r, hr, hopen, heq⟩
  · rw [heq] at hc
    cases hc
  · rw [heq] at hc
    obtain rfl := Option.some.inj hc
    have hne : r.id ≠ id := ne_of_settledIn (uniqueId_reclaim hu before) (settledIn_reclaim before h) hr hopen
    exact hne

theorem settledIn_apply (hu : UniqueKey QueueRow.id rows) (h : settledIn id rows = true)
    {op : QueueOp Id Message Time} (hop : reopens rows op = false) : settledIn id (op.apply rows).2 = true := by
  cases op with
  | idle => exact h
  | enqueue id' message now =>
    have hne : id ≠ id' := by
      rintro rfl
      rw [reopens, h] at hop
      cases hop
    rw [QueueOp.apply, settledIn, lookup_upsertRow_of_ne hne]
    exact h
  | claim owner now before tie =>
    have hreclaim := settledIn_reclaim before h
    rcases claim_cases hu owner now before tie with heq | ⟨r, hr, hopen, heq⟩
    · rw [QueueOp.apply, heq]
      exact hreclaim
    · rw [QueueOp.apply, heq]
      have hne := ne_of_settledIn (uniqueId_reclaim hu before) hreclaim hr hopen
      refine settledIn_updateWhere (fun _ _ => rfl) ?_ hreclaim
      intro x _ hx hxr _
      exact absurd (hx ▸ (of_decide_eq_true hxr).symm) hne
  | complete id' => exact settledIn_updateWhere (fun _ _ => rfl) (fun _ _ _ _ _ => rfl) h
  | fail id' error =>
    refine settledIn_updateWhere (fun _ _ => rfl) ?_ h
    intro r _ hr hp _
    rw [reopens, ← of_decide_eq_true hp, hr, h] at hop
    cases hop
  | bury id' error => exact settledIn_updateWhere (fun _ _ => rfl) (fun _ _ _ _ _ => rfl) h
  | postpone id' error nextAttemptAt =>
    refine settledIn_updateWhere (fun _ _ => rfl) ?_ h
    intro r _ hr hp _
    rw [reopens, ← of_decide_eq_true hp, hr, h] at hop
    cases hop

end Settled

/-- The queue has a row of this identifier, and it was claimed at `lockedAt`. -/
def heldSince (id : Id) (lockedAt : Time) (rows : List (QueueRow Id Message Time)) : Bool :=
  (lookup QueueRow.id id rows).any fun r => r.status = .held && r.lockedAt = some lockedAt

/-- The operation reports about the row, brings its message again, or takes back what was claimed that long ago. -/
def endsClaim (id : Id) (lockedAt : Time) : QueueOp Id Message Time → Bool
  | .idle => false
  | .enqueue id' _ _ => id' = id
  | .claim _ _ before _ => lockedAt < before
  | .complete id' => id' = id
  | .fail id' _ => id' = id
  | .bury id' _ => id' = id
  | .postpone id' _ _ => id' = id

section Held

variable {rows : List (QueueRow Id Message Time)} {id : Id} {lockedAt : Time}

theorem heldSince_some {r : QueueRow Id Message Time} (hr : lookup QueueRow.id id rows = some r) :
    heldSince id lockedAt rows = true ↔ r.status = .held ∧ r.lockedAt = some lockedAt := by
  simp [heldSince, hr]

theorem heldSince_updateWhere {p : QueueRow Id Message Time → Bool} {f : QueueRow Id Message Time → QueueRow Id Message Time}
    (hid : ∀ r, p r = true → (f r).id = r.id)
    (hp : ∀ r ∈ rows, r.id = id → r.status = .held → r.lockedAt = some lockedAt → p r = false)
    (h : heldSince id lockedAt rows = true) : heldSince id lockedAt (updateWhere p f rows) = true := by
  cases hl : lookup QueueRow.id id rows with
  | none =>
    rw [heldSince, hl] at h
    cases h
  | some r =>
    obtain ⟨hr, hrid⟩ := lookup_some hl
    obtain ⟨hheld, hlocked⟩ := (heldSince_some hl).mp h
    rw [heldSince, lookup_updateWhere hid, hl]
    simp [hp r hr hrid hheld hlocked, hheld, hlocked]

theorem heldSince_reclaim {before : Time} (hbefore : ¬ lockedAt < before) (h : heldSince id lockedAt rows = true) :
    heldSince id lockedAt (reclaim before rows) = true := by
  refine heldSince_updateWhere (fun _ _ => rfl) ?_ h
  intro r _ _ _ hlocked
  simp [isStale, hlocked, hbefore]

theorem ne_of_heldSince (hu : UniqueKey QueueRow.id rows) (h : heldSince id lockedAt rows = true)
    {r : QueueRow Id Message Time} (hr : r ∈ rows) (hopen : isOpen r = true) : r.id ≠ id := by
  rintro rfl
  have hheld := ((heldSince_some (hu.lookup_eq_some_iff.mpr ⟨hr, rfl⟩)).mp h).1
  simp [isOpen, hheld] at hopen

/-- What an operation hands out is held since the time in it. -/
theorem heldSince_of_claimed (hu : UniqueKey QueueRow.id rows) {op : QueueOp Id Message Time}
    {c : QueueRow Id Message Time} (hc : (op.apply rows).1 = some c) (hlocked : c.lockedAt = some lockedAt) :
    heldSince c.id lockedAt (op.apply rows).2 = true := by
  cases op with
  | claim owner now before tie =>
    rw [QueueOp.apply] at hc ⊢
    rcases claim_cases hu owner now before tie with heq | ⟨r, hr, -, heq⟩
    · rw [heq] at hc
      cases hc
    · rw [heq] at hc ⊢
      obtain rfl := Option.some.inj hc
      obtain rfl := Option.some.inj hlocked
      have hl : lookup QueueRow.id r.id (reclaim before rows) = some r :=
        (uniqueId_reclaim hu before).lookup_eq_some_iff.mpr ⟨hr, rfl⟩
      have hid : ∀ x : QueueRow Id Message Time, decide (x.id = r.id) = true → (hold owner now x).id = x.id :=
        fun _ _ => rfl
      have hheld : (hold owner now r).id = r.id := rfl
      rw [heldSince, hheld, lookup_updateWhere hid, hl]
      simp [hold]
  | _ => cases hc

/-- An operation that does not end the claim keeps it, and hands out another row if any. -/
theorem heldSince_apply (hu : UniqueKey QueueRow.id rows) (h : heldSince id lockedAt rows = true)
    {op : QueueOp Id Message Time} (hop : endsClaim id lockedAt op = false) :
    heldSince id lockedAt (op.apply rows).2 = true ∧ ∀ c, (op.apply rows).1 = some c → c.id ≠ id := by
  have hother : ∀ id' (f : QueueRow Id Message Time → QueueRow Id Message Time), (∀ r, (f r).id = r.id) → id' ≠ id →
      heldSince id lockedAt (updateWhere (fun r => r.id = id') f rows) = true := by
    intro id' f hf hne
    refine heldSince_updateWhere (fun r _ => hf r) ?_ h
    intro r _ hid _ _
    exact decide_eq_false fun hid' => hne (hid'.symm.trans hid)
  cases op with
  | idle => exact ⟨h, fun _ hc => nomatch hc⟩
  | enqueue id' message now =>
    refine ⟨?_, fun _ hc => nomatch hc⟩
    have hne : id ≠ id' := fun hid => of_decide_eq_false hop hid.symm
    rw [QueueOp.apply, heldSince, lookup_upsertRow_of_ne hne]
    exact h
  | claim owner now before tie =>
    have hreclaim := heldSince_reclaim (of_decide_eq_false hop) h
    rcases claim_cases hu owner now before tie with heq | ⟨r, hr, hopen, heq⟩
    · rw [QueueOp.apply, heq]
      exact ⟨hreclaim, fun _ hc => nomatch hc⟩
    · rw [QueueOp.apply, heq]
      have hne := ne_of_heldSince (uniqueId_reclaim hu before) hreclaim hr hopen
      constructor
      · refine heldSince_updateWhere (fun _ _ => rfl) ?_ hreclaim
        intro x _ hid _ _
        exact decide_eq_false fun hxr => hne (hxr.symm.trans hid)
      · intro c hc
        obtain rfl := Option.some.inj hc
        exact hne
  | complete id' => exact ⟨hother id' _ (fun _ => rfl) (of_decide_eq_false hop), fun _ hc => nomatch hc⟩
  | fail id' error => exact ⟨hother id' _ (fun _ => rfl) (of_decide_eq_false hop), fun _ hc => nomatch hc⟩
  | bury id' error => exact ⟨hother id' _ (fun _ => rfl) (of_decide_eq_false hop), fun _ hc => nomatch hc⟩
  | postpone id' error next => exact ⟨hother id' _ (fun _ => rfl) (of_decide_eq_false hop), fun _ hc => nomatch hc⟩

end Held

/-- Every row is still there, with its message. -/
def KeepsMessages (rows rows' : List (QueueRow Id Message Time)) : Prop :=
  ∀ r ∈ rows, ∃ r' ∈ rows', r'.id = r.id ∧ r'.message = r.message

section Messages

variable {rows : List (QueueRow Id Message Time)}

omit [DecidableEq Id] [LinearOrder Time] in
theorem keepsMessages_updateWhere {p : QueueRow Id Message Time → Bool} {f : QueueRow Id Message Time → QueueRow Id Message Time}
    (hf : ∀ r, (f r).id = r.id ∧ (f r).message = r.message) : KeepsMessages rows (updateWhere p f rows) := by
  intro r hr
  refine ⟨_, mem_updateWhere.mpr ⟨r, hr, rfl⟩, ?_⟩
  split
  · exact hf r
  · exact ⟨rfl, rfl⟩

omit [DecidableEq Id] [LinearOrder Time] in
theorem completed_updateWhere {p : QueueRow Id Message Time → Bool} {f : QueueRow Id Message Time → QueueRow Id Message Time}
    (hf : ∀ r, (f r).status ≠ .completed) {r : QueueRow Id Message Time} (hr : r ∈ updateWhere p f rows)
    (hcompleted : r.status = .completed) : r ∈ rows := by
  obtain ⟨s, hs, rfl⟩ := mem_updateWhere.mp hr
  split
  · next hp =>
    rw [if_pos hp] at hcompleted
    exact absurd hcompleted (hf s)
  · exact hs

/-- No message is lost, unless one arrives under the identifier of another. -/
theorem keepsMessages_apply (hu : UniqueKey QueueRow.id rows) {op : QueueOp Id Message Time}
    (hnew : ∀ id message now, op = .enqueue id message now → lookup QueueRow.id id rows = none) :
    KeepsMessages rows (op.apply rows).2 := by
  cases op with
  | idle => exact fun r hr => ⟨r, hr, rfl, rfl⟩
  | enqueue id message now =>
    intro r hr
    have hupsert : upsertRow QueueRow.id (arrival id message now) rows = rows ++ [arrival id message now] :=
      upsertRow_of_absent (hnew id message now rfl)
    refine ⟨r, ?_, rfl, rfl⟩
    rw [QueueOp.apply, hupsert]
    exact List.mem_append_left _ hr
  | claim owner now before tie =>
    rcases claim_cases hu owner now before tie with heq | ⟨c, -, -, heq⟩
    · rw [QueueOp.apply, heq]
      exact keepsMessages_updateWhere fun _ => ⟨rfl, rfl⟩
    · rw [QueueOp.apply, heq]
      intro r hr
      obtain ⟨s, hs, hid, hmessage⟩ := keepsMessages_updateWhere (p := isStale before) (f := release) (fun _ => ⟨rfl, rfl⟩) r hr
      obtain ⟨t, ht, hid', hmessage'⟩ := keepsMessages_updateWhere (f := hold owner now) (fun _ => ⟨rfl, rfl⟩) s hs
      exact ⟨t, ht, hid'.trans hid, hmessage'.trans hmessage⟩
  | complete id => exact keepsMessages_updateWhere fun _ => ⟨rfl, rfl⟩
  | fail id error => exact keepsMessages_updateWhere fun _ => ⟨rfl, rfl⟩
  | bury id error => exact keepsMessages_updateWhere fun _ => ⟨rfl, rfl⟩
  | postpone id error next => exact keepsMessages_updateWhere fun _ => ⟨rfl, rfl⟩

/-- A row is completed because it was, or because that is what the operation reports. -/
theorem completed_apply (hu : UniqueKey QueueRow.id rows) {op : QueueOp Id Message Time} {r : QueueRow Id Message Time}
    (hr : r ∈ (op.apply rows).2) (hcompleted : r.status = .completed) :
    r ∈ rows ∨ op = .complete r.id ∧ ∃ s ∈ rows, s.id = r.id ∧ s.message = r.message := by
  cases op with
  | idle => exact .inl hr
  | enqueue id message now =>
    rcases mem_upsertRow hr with rfl | hr
    · cases hcompleted
    · exact .inl hr
  | claim owner now before tie =>
    have hreclaimed : r ∈ reclaim before rows := by
      rcases claim_cases hu owner now before tie with heq | ⟨c, -, -, heq⟩
      · rwa [QueueOp.apply, heq] at hr
      · rw [QueueOp.apply, heq] at hr
        exact completed_updateWhere (fun _ => (by decide : QueueStatus.held ≠ .completed)) hr hcompleted
    exact .inl (completed_updateWhere (fun _ => (by decide : QueueStatus.fresh ≠ .completed)) hreclaimed hcompleted)
  | complete id =>
    obtain ⟨s, hs, rfl⟩ := mem_updateWhere.mp hr
    split
    · next hid => exact .inr ⟨congrArg _ (of_decide_eq_true hid).symm, s, hs, rfl, rfl⟩
    · exact .inl hs
  | fail id error => exact .inl (completed_updateWhere (fun _ => (by decide : QueueStatus.failed ≠ .completed)) hr hcompleted)
  | bury id error => exact .inl (completed_updateWhere (fun _ => (by decide : QueueStatus.dead ≠ .completed)) hr hcompleted)
  | postpone id error next => exact .inl (completed_updateWhere (fun _ => (by decide : QueueStatus.failed ≠ .completed)) hr hcompleted)

/-- What is handed out is a row of the table. -/
theorem claimed_mem (hu : UniqueKey QueueRow.id rows) {op : QueueOp Id Message Time} {c : QueueRow Id Message Time}
    (hc : (op.apply rows).1 = some c) : ∃ r ∈ (op.apply rows).2, r.id = c.id ∧ r.message = c.message := by
  cases op with
  | claim owner now before tie =>
    rw [QueueOp.apply] at hc ⊢
    rcases claim_cases hu owner now before tie with heq | ⟨r, hr, -, heq⟩
    · rw [heq] at hc
      cases hc
    · rw [heq] at hc ⊢
      obtain rfl := Option.some.inj hc
      exact keepsMessages_updateWhere (f := hold owner now) (fun _ => ⟨rfl, rfl⟩) r hr
  | _ => cases hc

end Messages

/-- A message that was tried arrives again as a new one, or a row that has no attempt left becomes claimable. -/
def overruns (limit : ℕ) (rows : List (QueueRow Id Message Time)) : QueueOp Id Message Time → Bool
  | .enqueue id _ _ => 0 < attemptsOf id rows
  | .claim _ _ before _ => rows.any fun r => isStale before r && limit ≤ r.attempts
  | .fail id _ => limit ≤ attemptsOf id rows
  | .postpone id _ _ => limit ≤ attemptsOf id rows
  | _ => false

/-- The rows count how often they were handed out, and those that can be claimed have an
attempt left. -/
structure Counted (handed : List Id) (limit : ℕ) (rows : List (QueueRow Id Message Time)) : Prop where
  uniqueId : UniqueKey QueueRow.id rows
  issued : ∀ id ∈ handed, ∃ r ∈ rows, r.id = id
  counted : ∀ r ∈ rows, r.attempts = handed.count r.id
  bounded : ∀ r ∈ rows, r.attempts ≤ limit
  attemptLeft : ∀ r ∈ rows, isOpen r = true → r.attempts < limit

namespace Counted

variable {rows : List (QueueRow Id Message Time)} {handed : List Id} {limit : ℕ}

omit [LinearOrder Time] in
theorem nil (limit : ℕ) : Counted [] limit ([] : List (QueueRow Id Message Time)) where
  uniqueId := .nil
  issued := fun _ h => nomatch h
  counted := fun _ h => nomatch h
  bounded := fun _ h => nomatch h
  attemptLeft := fun _ h => nomatch h

omit [LinearOrder Time] in
theorem attemptsOf_eq (h : Counted handed limit rows) {r : QueueRow Id Message Time} (hr : r ∈ rows) :
    attemptsOf r.id rows = r.attempts := by
  have hl : lookup QueueRow.id r.id rows = some r := h.uniqueId.lookup_eq_some_iff.mpr ⟨hr, rfl⟩
  rw [attemptsOf, hl]
  rfl

omit [LinearOrder Time] in
private theorem attempts_lt (h : Counted handed limit rows) {id : Id} (hlt : attemptsOf id rows < limit)
    {r : QueueRow Id Message Time} (hr : r ∈ rows) (hid : decide (r.id = id) = true) : r.attempts < limit := by
  rw [← h.attemptsOf_eq hr, of_decide_eq_true hid]
  exact hlt

omit [LinearOrder Time] in
theorem count_le (h : Counted handed limit rows) (id : Id) : handed.count id ≤ limit := by
  by_cases hid : id ∈ handed
  · obtain ⟨r, hr, rfl⟩ := h.issued id hid
    rw [← h.counted r hr]
    exact h.bounded r hr
  · rw [List.count_eq_zero_of_not_mem hid]
    exact Nat.zero_le limit

omit [LinearOrder Time] in
theorem updateWhere (h : Counted handed limit rows) {p : QueueRow Id Message Time → Bool}
    {f : QueueRow Id Message Time → QueueRow Id Message Time} (hid : ∀ r, (f r).id = r.id)
    (hattempts : ∀ r, (f r).attempts = r.attempts)
    (hopen : ∀ r ∈ rows, p r = true → isOpen (f r) = true → r.attempts < limit) :
    Counted handed limit (updateWhere p f rows) := by
  have hkept : ∀ r, (if p r then f r else r).id = r.id ∧ (if p r then f r else r).attempts = r.attempts := by
    intro r
    split
    · exact ⟨hid r, hattempts r⟩
    · exact ⟨rfl, rfl⟩
  constructor
  · exact h.uniqueId.updateWhere fun r _ => hid r
  · intro id hmem
    obtain ⟨r, hr, rfl⟩ := h.issued id hmem
    exact ⟨_, mem_updateWhere.mpr ⟨r, hr, rfl⟩, (hkept r).1⟩
  · intro x hx
    obtain ⟨r, hr, rfl⟩ := mem_updateWhere.mp hx
    rw [(hkept r).1, (hkept r).2]
    exact h.counted r hr
  · intro x hx
    obtain ⟨r, hr, rfl⟩ := mem_updateWhere.mp hx
    rw [(hkept r).2]
    exact h.bounded r hr
  · intro x hx hxopen
    obtain ⟨r, hr, rfl⟩ := mem_updateWhere.mp hx
    rw [(hkept r).2]
    split at hxopen
    · next hp => exact hopen r hr hp hxopen
    · exact h.attemptLeft r hr hxopen

omit [LinearOrder Time] in
theorem enqueue (h : Counted handed limit rows) (hlimit : 1 ≤ limit) {id : Id} (hid : attemptsOf id rows = 0)
    (message : Message) (now : Time) :
    Counted handed limit (upsertRow QueueRow.id (arrival id message now) rows) := by
  have hunused : handed.count id = 0 := by
    by_cases hmem : id ∈ handed
    · obtain ⟨r, hr, rfl⟩ := h.issued id hmem
      rw [← h.counted r hr, ← h.attemptsOf_eq hr]
      exact hid
    · exact List.count_eq_zero_of_not_mem hmem
  constructor
  · exact h.uniqueId.upsertRow _
  · intro k hk
    obtain ⟨r, hr, rfl⟩ := h.issued k hk
    have hne : r.id ≠ (arrival id message now).id := by
      rintro rfl
      exact List.count_eq_zero.mp hunused hk
    have hl : lookup QueueRow.id r.id rows = some r := h.uniqueId.lookup_eq_some_iff.mpr ⟨hr, rfl⟩
    rw [← lookup_upsertRow_of_ne hne] at hl
    exact ⟨r, (lookup_some hl).1, rfl⟩
  · intro r hr
    rcases mem_upsertRow hr with rfl | hr
    · exact hunused.symm
    · exact h.counted r hr
  · intro r hr
    rcases mem_upsertRow hr with rfl | hr
    · exact Nat.zero_le limit
    · exact h.bounded r hr
  · intro r hr hopen
    rcases mem_upsertRow hr with rfl | hr
    · exact hlimit
    · exact h.attemptLeft r hr hopen

omit [LinearOrder Time] in
theorem hold (h : Counted handed limit rows) {r : QueueRow Id Message Time} (hr : r ∈ rows) (hopen : isOpen r = true)
    (owner : String) (now : Time) :
    Counted (handed ++ [r.id]) limit (KeyedTables.updateWhere (fun x => x.id = r.id) (hold owner now) rows) := by
  have hcases : ∀ x ∈ KeyedTables.updateWhere (fun x => x.id = r.id) (ClaimQueues.hold owner now) rows,
      x = ClaimQueues.hold owner now r ∨ x ∈ rows ∧ x.id ≠ r.id := by
    intro x hx
    obtain ⟨y, hy, rfl⟩ := mem_updateWhere.mp hx
    split
    · next hp =>
      rw [h.uniqueId.eq_of_key_eq hy hr (of_decide_eq_true hp)]
      exact .inl rfl
    · next hp => exact .inr ⟨hy, fun hid => hp (decide_eq_true hid)⟩
  have hleft : r.attempts < limit := h.attemptLeft r hr hopen
  constructor
  · exact h.uniqueId.updateWhere fun _ _ => rfl
  · intro id hid
    have hrow : ∃ y ∈ rows, y.id = id := by
      rcases List.mem_append.mp hid with hid | hid
      · exact h.issued id hid
      · exact ⟨r, hr, (List.mem_singleton.mp hid).symm⟩
    obtain ⟨y, hy, rfl⟩ := hrow
    refine ⟨_, mem_updateWhere.mpr ⟨y, hy, rfl⟩, ?_⟩
    split
    · rfl
    · rfl
  · intro x hx
    rcases hcases x hx with rfl | ⟨hmem, hne⟩
    · change r.attempts + 1 = (handed ++ [r.id]).count r.id
      rw [List.count_append, List.count_singleton_self, h.counted r hr]
    · rw [List.count_append, List.count_singleton, h.counted x hmem]
      simp [hne.symm]
  · intro x hx
    rcases hcases x hx with rfl | ⟨hmem, -⟩
    · exact hleft
    · exact h.bounded x hmem
  · intro x hx hxopen
    rcases hcases x hx with rfl | ⟨hmem, -⟩
    · cases hxopen
    · exact h.attemptLeft x hmem hxopen

theorem apply (h : Counted handed limit rows) (hlimit : 1 ≤ limit) {op : QueueOp Id Message Time}
    (hop : overruns limit rows op = false) :
    Counted (handed ++ ((op.apply rows).1.map QueueRow.id).toList) limit (op.apply rows).2 := by
  cases op with
  | idle => simpa [QueueOp.apply] using h
  | enqueue id message now =>
    have hzero : attemptsOf id rows = 0 := by simpa [overruns] using hop
    simpa [QueueOp.apply] using h.enqueue hlimit hzero message now
  | claim owner now before tie =>
    have hreclaim : Counted handed limit (reclaim before rows) := by
      refine h.updateWhere (fun _ => rfl) (fun _ => rfl) ?_
      intro r hr hstale _
      have hnone := List.any_eq_false.mp hop r hr
      simpa [hstale] using hnone
    rcases claim_cases h.uniqueId owner now before tie with heq | ⟨r, hr, hopen, heq⟩
    · simpa [QueueOp.apply, heq] using hreclaim
    · rw [QueueOp.apply, heq]
      exact hreclaim.hold hr hopen owner now
  | complete id =>
    have hcomplete : Counted handed limit (complete id rows) :=
      h.updateWhere (fun _ => rfl) (fun _ => rfl) fun _ _ _ hopen => nomatch hopen
    simpa [QueueOp.apply] using hcomplete
  | fail id error =>
    have hlt : attemptsOf id rows < limit := by simpa [overruns] using hop
    have hfail : Counted handed limit (fail id error rows) :=
      h.updateWhere (fun _ => rfl) (fun _ => rfl) fun r hr hp _ => h.attempts_lt hlt hr hp
    simpa [QueueOp.apply] using hfail
  | bury id error =>
    have hbury : Counted handed limit (bury id error rows) :=
      h.updateWhere (fun _ => rfl) (fun _ => rfl) fun _ _ _ hopen => nomatch hopen
    simpa [QueueOp.apply] using hbury
  | postpone id error nextAttemptAt =>
    have hlt : attemptsOf id rows < limit := by simpa [overruns] using hop
    have hpostpone : Counted handed limit (postpone id error nextAttemptAt rows) :=
      h.updateWhere (fun _ => rfl) (fun _ => rfl) fun r hr hp _ => h.attempts_lt hlt hr hp
    simpa [QueueOp.apply] using hpostpone

end Counted

end OpenMinion.ClaimQueues
