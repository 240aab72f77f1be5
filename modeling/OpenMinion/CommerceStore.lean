import Mathlib.Data.List.Pairwise
import OpenMinion.JsonValues
import OpenMinion.KeyedTables

/-!
# The commerce store

Every function here is one SQL statement of the store. An attempt is inserted unless a unique index has a row already:
of its key, of its target, or of the order that an active action works on.
-/
namespace OpenMinion.CommerceStore
open JsonValues KeyedTables

structure Money where
  currency : String
  amountMinor : ℕ
  deriving DecidableEq

/-- `details` has the fields of a model that no operation looks at by itself. -/
structure LineItem where
  lineItemId : Option String
  quantity : ℕ
  details : Dict
  deriving DecidableEq

abbrev Links := List (String × String)

inductive PreparationState where
  | prepared
  | providerUnknown
  deriving DecidableEq

structure OrderPreparation where
  preparationRef : String
  checkoutRef : String
  checkoutRevision : String
  items : List LineItem
  merchantId : String
  buyerLabel : String
  destinationLabel : String
  paymentLabel : String
  subtotal : Money
  total : Money
  warnings : List String
  links : Links
  state : PreparationState
  expiresAt : String
  preparationDigest : String
  details : Dict
  deriving DecidableEq

inductive OrderActionKind where
  | cancel
  | partialCancel
  | return
  | partialReturn
  | refundRequest
  deriving DecidableEq

inductive RefundMethod where
  | originalPaymentMethod
  | storeCredit
  deriving DecidableEq

structure OrderActionItem where
  lineItemId : String
  quantity : ℕ
  deriving DecidableEq

structure OrderActionPreparation where
  actionRef : String
  orderRef : String
  orderRevision : String
  kind : OrderActionKind
  affectedItems : List OrderActionItem
  reason : Option String
  eligible : Bool
  fees : Money
  refund : Money
  refundMethod : Option RefundMethod
  refundDestination : Option Dict
  returnDestination : Option Dict
  returnMethod : Option String
  shipmentResponsibility : Option String
  deadlines : List String
  expiresAt : String
  actionDigest : String
  details : Dict
  deriving DecidableEq

abbrev CommerceLifecycleState := Dict

inductive AttemptKind where
  | preparation
  | placement
  | action
  deriving DecidableEq

inductive AttemptState where
  | reserved
  | submitted
  | succeeded
  | failed
  | outcomeUnknown
  deriving DecidableEq

/-- `_TERMINAL_ATTEMPT_STATES`. -/
def AttemptState.terminal : AttemptState → Bool
  | .succeeded | .failed => true
  | _ => false

structure CommerceAttempt where
  attemptId : String
  subjectId : String
  kind : AttemptKind
  targetId : String
  operation : String
  idempotencyKey : String
  requestDigest : String
  authorizationHash : Option String
  attemptCount : ℕ := 0
  state : AttemptState := .reserved
  responseDigest : Option String := none
  providerReferenceDigest : Option String := none
  active : Bool := true
  createdAt : String
  updatedAt : String
  deriving DecidableEq

structure PreparationPayload where
  items : List LineItem
  total : Money
  details : Dict
  deriving DecidableEq

structure PreparationRecord where
  preparationId : String
  subjectId : String
  payload : PreparationPayload
  prepared : Option OrderPreparation
  preparationAttemptId : Option String
  createdAt : String
  invalidatedAt : Option String := none
  deriving DecidableEq

structure OrderRecord where
  orderId : String
  subjectId : String
  preparationId : String
  providerOrderDigest : String
  payload : PreparationPayload
  lifecycle : CommerceLifecycleState
  placementAttemptId : Option String
  createdAt : String
  updatedAt : String
  deriving DecidableEq

structure ActionPreparationRecord where
  actionId : String
  subjectId : String
  orderId : String
  prepared : OrderActionPreparation
  createdAt : String
  invalidatedAt : Option String := none
  deriving DecidableEq

structure CommerceDb where
  attempts : List CommerceAttempt := []
  preparations : List PreparationRecord := []
  orders : List OrderRecord := []
  actionPreparations : List ActionPreparationRecord := []
  deriving DecidableEq

/-- `attempt_id`. -/
def sameId (a b : CommerceAttempt) : Bool := a.attemptId = b.attemptId

/-- `UNIQUE(subject_id, kind, idempotency_key)`. -/
def sameKey (a b : CommerceAttempt) : Bool :=
  a.subjectId = b.subjectId ∧ a.kind = b.kind ∧ a.idempotencyKey = b.idempotencyKey

/-- `idx_commerce_attempt_stable_target`. -/
def sameStableTarget (a b : CommerceAttempt) : Bool :=
  a.subjectId = b.subjectId ∧ a.kind = b.kind ∧ a.targetId = b.targetId ∧ a.kind ≠ .action

/-- `idx_commerce_active_action`. -/
def sameActiveAction (a b : CommerceAttempt) : Bool :=
  a.subjectId = b.subjectId ∧ a.targetId = b.targetId ∧ a.kind = .action ∧ b.kind = .action ∧ a.active ∧ b.active

def clashes (a b : CommerceAttempt) : Bool := sameId a b || sameKey a b || sameStableTarget a b || sameActiveAction a b

namespace CommerceDb

/-- `INSERT INTO commerce_attempts .. ON CONFLICT DO NOTHING`, with the number of rows. -/
def insertAttempt (db : CommerceDb) (row : CommerceAttempt) : ℕ × CommerceDb :=
  if db.attempts.any (clashes row) then (0, db) else (1, { db with attempts := db.attempts ++ [row] })

def getAttemptByIdempotency (db : CommerceDb) (subjectId : String) (kind : AttemptKind) (idempotencyKey : String) :
    Option CommerceAttempt :=
  db.attempts.find? fun a => a.subjectId = subjectId ∧ a.kind = kind ∧ a.idempotencyKey = idempotencyKey

/-- `ORDER BY created_at DESC, attempt_id DESC` has the first row behind the second. -/
def behind (a b : CommerceAttempt) : Bool :=
  a.createdAt < b.createdAt ∨ a.createdAt = b.createdAt ∧ a.attemptId < b.attemptId

/-- The row that `LIMIT 1` leaves. -/
def later (best : Option CommerceAttempt) (a : CommerceAttempt) : Option CommerceAttempt :=
  match best with
  | none => some a
  | some b => if behind b a then some a else some b

def findReservedTarget (db : CommerceDb) (subjectId : String) (kind : AttemptKind) (targetId : String) :
    Option CommerceAttempt :=
  (db.attempts.filter fun a => a.subjectId = subjectId ∧ a.kind = kind ∧ a.targetId = targetId ∧
    (kind = .action → a.active)).foldl later none

def getAttempt (db : CommerceDb) (subjectId attemptId : String) : Option CommerceAttempt :=
  db.attempts.find? fun a => a.subjectId = subjectId ∧ a.attemptId = attemptId

/-- The row that `begin_placement_attempt` and `begin_action_attempt` update. -/
def canBegin (kind : AttemptKind) (subjectId attemptId : String) (a : CommerceAttempt) : Bool :=
  a.subjectId = subjectId ∧ a.attemptId = attemptId ∧ a.kind = kind ∧ a.state = .reserved ∧ a.attemptCount = 0

def begun (now : String) (a : CommerceAttempt) : CommerceAttempt :=
  { a with state := .submitted, attemptCount := a.attemptCount + 1, updatedAt := now }

def beginAttempt (db : CommerceDb) (kind : AttemptKind) (subjectId attemptId now : String) : ℕ × CommerceDb :=
  (db.attempts.countP (canBegin kind subjectId attemptId),
    { db with attempts := updateWhere (canBegin kind subjectId attemptId) (begun now) db.attempts })

/-- The facts that `finish_attempt` writes. -/
structure Finish where
  state : AttemptState
  responseDigest : Option String := none
  providerReferenceDigest : Option String := none
  deriving DecidableEq

def finished (f : Finish) (now : String) (a : CommerceAttempt) : CommerceAttempt :=
  { a with
    state := f.state, responseDigest := f.responseDigest, providerReferenceDigest := f.providerReferenceDigest,
    active := !f.state.terminal, updatedAt := now }

def isAttempt (subjectId attemptId : String) (a : CommerceAttempt) : Bool :=
  a.subjectId = subjectId ∧ a.attemptId = attemptId

def finishClashes (db : CommerceDb) (subjectId attemptId : String) (f : Finish) (now : String) : Bool :=
  db.attempts.any fun a => isAttempt subjectId attemptId a &&
    db.attempts.any fun b => !sameId a b && sameActiveAction (finished f now a) b

/-- `UPDATE commerce_attempts SET state = ? ..`: the number of rows, or no number when a unique index is violated. -/
def finishAttempt (db : CommerceDb) (subjectId attemptId : String) (f : Finish) (now : String) : Option ℕ × CommerceDb :=
  if db.finishClashes subjectId attemptId f now then (none, db)
  else (some (db.attempts.countP (isAttempt subjectId attemptId)),
    { db with attempts := updateWhere (isAttempt subjectId attemptId) (finished f now) db.attempts })

def getPreparation (db : CommerceDb) (subjectId preparationId : String) : Option PreparationRecord :=
  db.preparations.find? fun r => r.subjectId = subjectId ∧ r.preparationId = preparationId

/-- `INSERT INTO commerce_preparations .. ON CONFLICT(preparation_id) DO NOTHING`. -/
def insertPreparation (db : CommerceDb) (row : PreparationRecord) : ℕ × CommerceDb :=
  if db.preparations.any (·.preparationId = row.preparationId) then (0, db)
  else (1, { db with preparations := db.preparations ++ [row] })

def ownsPreparation (subjectId preparationId : String) (r : PreparationRecord) : Bool :=
  r.subjectId = subjectId ∧ r.preparationId = preparationId

/-- `SET invalidated_at = COALESCE(invalidated_at, ?)`. -/
def invalidated (now : String) (r : PreparationRecord) : PreparationRecord :=
  { r with invalidatedAt := r.invalidatedAt.or (some now) }

def invalidatePreparation (db : CommerceDb) (subjectId preparationId now : String) : ℕ × CommerceDb :=
  (db.preparations.countP (ownsPreparation subjectId preparationId),
    { db with preparations := updateWhere (ownsPreparation subjectId preparationId) (invalidated now) db.preparations })

def getOrder (db : CommerceDb) (subjectId orderId : String) : Option OrderRecord :=
  db.orders.find? fun r => r.subjectId = subjectId ∧ r.orderId = orderId

/-- `INSERT INTO commerce_orders .. ON CONFLICT(order_id) DO NOTHING`; another order of the preparation violates
its unique index. -/
def insertOrder (db : CommerceDb) (row : OrderRecord) : Option ℕ × CommerceDb :=
  if db.orders.any (·.orderId = row.orderId) then (some 0, db)
  else if db.orders.any (·.preparationId = row.preparationId) then (none, db)
  else (some 1, { db with orders := db.orders ++ [row] })

def ownsOrder (subjectId orderId : String) (r : OrderRecord) : Bool := r.subjectId = subjectId ∧ r.orderId = orderId

def withLifecycle (lifecycle : CommerceLifecycleState) (now : String) (r : OrderRecord) : OrderRecord :=
  { r with lifecycle := lifecycle, updatedAt := now }

def updateOrderLifecycle (db : CommerceDb) (subjectId orderId : String) (lifecycle : CommerceLifecycleState) (now : String) :
    ℕ × CommerceDb :=
  (db.orders.countP (ownsOrder subjectId orderId),
    { db with orders := updateWhere (ownsOrder subjectId orderId) (withLifecycle lifecycle now) db.orders })

def getActionPreparation (db : CommerceDb) (subjectId actionId : String) : Option ActionPreparationRecord :=
  db.actionPreparations.find? fun r => r.subjectId = subjectId ∧ r.actionId = actionId

/-- `INSERT INTO commerce_action_preparations .. ON CONFLICT(action_id) DO NOTHING`. -/
def insertActionPreparation (db : CommerceDb) (row : ActionPreparationRecord) : ℕ × CommerceDb :=
  if db.actionPreparations.any (·.actionId = row.actionId) then (0, db)
  else (1, { db with actionPreparations := db.actionPreparations ++ [row] })

end CommerceDb

def UniqueAttempts (attempts : List CommerceAttempt) : Prop :=
  attempts.Pairwise fun a b => clashes a b = false

variable {attempts : List CommerceAttempt} {a b : CommerceAttempt}

theorem clashes_comm (a b : CommerceAttempt) : clashes a b = clashes b a := by
  have hid : sameId a b = sameId b a := by simp [sameId, eq_comm]
  have hkey : sameKey a b = sameKey b a := by simp [sameKey, eq_comm]
  have htarget : sameStableTarget a b = sameStableTarget b a := by
    rw [sameStableTarget, sameStableTarget, decide_eq_decide]
    constructor
    · rintro ⟨hs, hk, ht, hne⟩
      exact ⟨hs.symm, hk.symm, ht.symm, hk ▸ hne⟩
    · rintro ⟨hs, hk, ht, hne⟩
      exact ⟨hs.symm, hk.symm, ht.symm, hk ▸ hne⟩
  have hactive : sameActiveAction a b = sameActiveAction b a := by
    rw [sameActiveAction, sameActiveAction, decide_eq_decide]
    constructor
    · rintro ⟨hs, ht, ha, hb, haa, hba⟩
      exact ⟨hs.symm, ht.symm, hb, ha, hba, haa⟩
    · rintro ⟨hs, ht, ha, hb, haa, hba⟩
      exact ⟨hs.symm, ht.symm, hb, ha, hba, haa⟩
  rw [clashes, clashes, hid, hkey, htarget, hactive]

namespace UniqueAttempts

theorem eq_of_clashes (h : UniqueAttempts attempts) (ha : a ∈ attempts) (hb : b ∈ attempts)
    (hclash : clashes a b = true) : a = b := by
  have hsymm : Std.Symm fun a b : CommerceAttempt => clashes a b = false :=
    ⟨fun a b hab => (clashes_comm b a).trans hab⟩
  by_contra hne
  have hfree := List.Pairwise.forall h ha hb hne
  rw [hclash] at hfree
  cases hfree

theorem eq_of_id (h : UniqueAttempts attempts) (ha : a ∈ attempts) (hb : b ∈ attempts)
    (hid : a.attemptId = b.attemptId) : a = b := h.eq_of_clashes ha hb (by simp [clashes, sameId, hid])

theorem eq_of_key (h : UniqueAttempts attempts) (ha : a ∈ attempts) (hb : b ∈ attempts) (hs : a.subjectId = b.subjectId)
    (hk : a.kind = b.kind) (hkey : a.idempotencyKey = b.idempotencyKey) : a = b :=
  h.eq_of_clashes ha hb (by simp [clashes, sameKey, hs, hk, hkey])

theorem eq_of_target (h : UniqueAttempts attempts) (ha : a ∈ attempts) (hb : b ∈ attempts) (hs : a.subjectId = b.subjectId)
    (hk : a.kind = b.kind) (ht : a.targetId = b.targetId) (hne : a.kind ≠ .action) : a = b :=
  h.eq_of_clashes ha hb (by simp [clashes, sameStableTarget, hs, hk, ht, hk ▸ hne])

theorem eq_of_active (h : UniqueAttempts attempts) (ha : a ∈ attempts) (hb : b ∈ attempts) (hs : a.subjectId = b.subjectId)
    (ht : a.targetId = b.targetId) (hka : a.kind = .action) (hkb : b.kind = .action) (haa : a.active = true)
    (hab : b.active = true) : a = b :=
  h.eq_of_clashes ha hb (by simp [clashes, sameActiveAction, hs, ht, hka, hkb, haa, hab])

end UniqueAttempts

/-- The columns of an attempt that no statement changes. -/
structure SameAttempt (a b : CommerceAttempt) : Prop where
  attemptId : b.attemptId = a.attemptId
  subjectId : b.subjectId = a.subjectId
  kind : b.kind = a.kind
  targetId : b.targetId = a.targetId
  idempotencyKey : b.idempotencyKey = a.idempotencyKey
  attemptCount : a.attemptCount ≤ b.attemptCount

theorem SameAttempt.refl (a : CommerceAttempt) : SameAttempt a a := ⟨rfl, rfl, rfl, rfl, rfl, le_rfl⟩

theorem SameAttempt.trans {c : CommerceAttempt} (h : SameAttempt a b) (h' : SameAttempt b c) : SameAttempt a c :=
  ⟨h'.attemptId.trans h.attemptId, h'.subjectId.trans h.subjectId, h'.kind.trans h.kind, h'.targetId.trans h.targetId,
    h'.idempotencyKey.trans h.idempotencyKey, h.attemptCount.trans h'.attemptCount⟩

theorem sameAttempt_begun (now : String) (a : CommerceAttempt) : SameAttempt a (CommerceDb.begun now a) :=
  ⟨rfl, rfl, rfl, rfl, rfl, Nat.le_succ _⟩

theorem sameAttempt_finished (f : CommerceDb.Finish) (now : String) (a : CommerceAttempt) :
    SameAttempt a (CommerceDb.finished f now a) := ⟨rfl, rfl, rfl, rfl, rfl, le_rfl⟩

theorem clashes_congr {a' b' : CommerceAttempt} (ha : SameAttempt a a') (hb : SameAttempt b b') (haa : a'.active = a.active)
    (hba : b'.active = b.active) : clashes a' b' = clashes a b := by
  rw [clashes, clashes, sameId, sameId, sameKey, sameKey, sameStableTarget, sameStableTarget, sameActiveAction,
    sameActiveAction, ha.attemptId, ha.subjectId, ha.kind, ha.targetId, ha.idempotencyKey, hb.attemptId, hb.subjectId,
    hb.kind, hb.targetId, hb.idempotencyKey, haa, hba]

namespace CommerceDb

variable {db : CommerceDb}

theorem unique_insertAttempt (h : UniqueAttempts db.attempts) (row : CommerceAttempt) :
    UniqueAttempts (db.insertAttempt row).2.attempts := by
  rw [insertAttempt]
  split
  · exact h
  · next hfree =>
    refine List.pairwise_append.mpr ⟨h, List.pairwise_singleton _ _, ?_⟩
    intro a ha b hb
    rw [List.mem_singleton.mp hb, clashes_comm]
    rw [List.any_eq_true, not_exists] at hfree
    simpa [ha] using hfree a

theorem unique_beginAttempt (h : UniqueAttempts db.attempts) (kind : AttemptKind) (subjectId attemptId now : String) :
    UniqueAttempts (db.beginAttempt kind subjectId attemptId now).2.attempts := by
  refine List.pairwise_map.mpr (h.imp fun {a b} hab => ?_)
  refine (clashes_congr ?_ ?_ ?_ ?_).trans hab
  · split
    · exact sameAttempt_begun now a
    · exact .refl a
  · split
    · exact sameAttempt_begun now b
    · exact .refl b
  · split <;> rfl
  · split <;> rfl

theorem unique_finishAttempt (h : UniqueAttempts db.attempts) (subjectId attemptId : String) (f : Finish) (now : String) :
    UniqueAttempts (db.finishAttempt subjectId attemptId f now).2.attempts := by
  rw [finishAttempt]
  split
  · exact h
  · next hfree =>
    refine List.pairwise_map.mpr (List.Pairwise.imp_of_mem (fun {a b} ha hb hab => ?_) h)
    -- Two rows of one identifier clash, so at most one of the two rows is updated.
    have hids : a.attemptId ≠ b.attemptId := by
      intro hid
      simp [clashes, sameId, hid] at hab
    have hother : ∀ x ∈ db.attempts, ∀ y ∈ db.attempts, isAttempt subjectId attemptId x = true → x.attemptId ≠ y.attemptId →
        clashes x y = false → clashes (finished f now x) y = false := by
      intro x hx y hy hupdated hne hclash
      have hnone : sameActiveAction (finished f now x) y = false := by
        rw [finishClashes, List.any_eq_true, not_exists] at hfree
        have hx' := hfree x
        rw [Bool.and_eq_true, List.any_eq_true] at hx'
        by_contra hsome
        refine hx' ⟨hx, hupdated, y, hy, ?_⟩
        rw [Bool.and_eq_true]
        exact ⟨by simpa [sameId] using hne, by simpa using hsome⟩
      simp only [clashes, Bool.or_eq_false_iff] at hclash ⊢
      exact ⟨⟨⟨hclash.1.1.1, hclash.1.1.2⟩, hclash.1.2⟩, hnone⟩
    split
    · next hau =>
      split
      · next hbu =>
        rw [isAttempt, decide_eq_true_eq] at hau hbu
        exact absurd (hau.2.trans hbu.2.symm) hids
      · exact hother a ha b hb hau hids hab
    · split
      · next hbu =>
        rw [clashes_comm]
        exact hother b hb a ha hbu (Ne.symm hids) ((clashes_comm b a).trans hab)
      · exact hab

theorem mem_of_findReservedTarget {subjectId targetId : String} {kind : AttemptKind} {a : CommerceAttempt}
    (h : db.findReservedTarget subjectId kind targetId = some a) :
    a ∈ db.attempts ∧ a.subjectId = subjectId ∧ a.kind = kind ∧ a.targetId = targetId ∧ (kind = .action → a.active = true) := by
  have hfold : ∀ (rows : List CommerceAttempt) (best : Option CommerceAttempt), rows.foldl later best = some a →
      a ∈ rows ∨ best = some a := by
    intro rows
    induction rows with
    | nil => exact fun best hbest => .inr hbest
    | cons r rows ih =>
      intro best hbest
      rcases ih _ hbest with hmem | hlater
      · exact .inl (List.mem_cons_of_mem r hmem)
      · cases best with
        | none => exact .inl (by rw [← Option.some_inj.mp hlater]; exact List.mem_cons_self)
        | some b =>
          rw [later] at hlater
          split at hlater
          · exact .inl (by rw [← Option.some_inj.mp hlater]; exact List.mem_cons_self)
          · exact .inr hlater
  rcases hfold _ _ h with hmem | hnone
  · obtain ⟨hmem, hp⟩ := List.mem_filter.mp hmem
    rw [decide_eq_true_eq] at hp
    exact ⟨hmem, hp⟩
  · cases hnone

theorem mem_of_getAttemptByIdempotency {subjectId idempotencyKey : String} {kind : AttemptKind} {a : CommerceAttempt}
    (h : db.getAttemptByIdempotency subjectId kind idempotencyKey = some a) :
    a ∈ db.attempts ∧ a.subjectId = subjectId ∧ a.kind = kind ∧ a.idempotencyKey = idempotencyKey := by
  have hp := List.find?_some h
  rw [decide_eq_true_eq] at hp
  exact ⟨List.mem_of_find?_eq_some h, hp⟩

end CommerceDb

end OpenMinion.CommerceStore
