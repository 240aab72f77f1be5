import OpenMinion.CommerceStore
import OpenMinion.InterleavedThreads
import OpenMinion.StatementPrograms

/-!
# The commerce runtime by statements

The public operations of the runtime, cut where the code goes to the store, to the merchant's provider or to the
secret service. The environment chooses the answers, the clock readings and the identifiers.
-/
namespace OpenMinion.CommercePrograms
open CommerceStore InterleavedThreads JsonValues StatementPrograms

structure RequestedItem where
  offerId : String
  variantId : String
  quantity : ℕ
  deriving DecidableEq

structure PrepareOrderRequest where
  idempotencyKey : String
  items : List RequestedItem
  promotionCode : Option String
  deriving DecidableEq

structure PlaceOrderRequest where
  idempotencyKey : String
  preparationRef : String
  preparationDigest : String
  deriving DecidableEq

structure PrepareOrderActionRequest where
  idempotencyKey : String
  orderRef : String
  orderRevision : String
  kind : OrderActionKind
  lineItemIds : List String
  quantity : Option ℕ
  reason : Option String
  refundMethod : Option RefundMethod
  deriving DecidableEq

structure ApplyOrderActionRequest where
  idempotencyKey : String
  actionRef : String
  orderRef : String
  actionDigest : String
  deriving DecidableEq

structure CheckoutInspection where
  revision : String
  items : List LineItem
  subtotal : Money
  total : Money
  warnings : List String
  deriving DecidableEq

structure OrderInspection where
  revision : String
  items : List LineItem
  total : Money
  deriving DecidableEq

inductive CommerceInspection where
  | product (merchantId : String)
  | checkout (inspection : CheckoutInspection)
  | order (inspection : OrderInspection)
  | other
  deriving DecidableEq

inductive PlacementState where
  | succeeded
  | declined
  | actionRequired
  | failed
  | outcomeUnknown
  deriving DecidableEq

structure OrderPlacement where
  idempotencyKey : String
  preparationRef : String
  state : PlacementState
  orderRef : Option String
  lifecycle : CommerceLifecycleState
  links : Links
  details : Dict
  deriving DecidableEq

inductive OrderActionResultState where
  | pending
  | completed
  | rejected
  | failed
  | outcomeUnknown
  deriving DecidableEq

structure OrderActionResult where
  idempotencyKey : String
  actionRef : String
  orderRef : String
  state : OrderActionResultState
  lifecycle : CommerceLifecycleState
  links : Links
  details : Dict
  deriving DecidableEq

structure Credentials where
  buyerLabel : String
  destinationLabel : String
  paymentLabel : String
  deriving DecidableEq

inductive Answer (α : Type) where
  | returns (value : α)
  | outcomeUnknown
  /-- A `CommerceProviderError` that is no `CommerceOutcomeUnknown`. -/
  | rejected (code : String)
  /-- Any other exception. -/
  | raises
  deriving DecidableEq

def Answer.isRejected {α : Type} : Answer α → Bool
  | .rejected _ => true
  | _ => false

structure Choice where
  now : String := "now"
  newId : String := "id"
  inspection : Answer CommerceInspection := .raises
  credentials : Answer Credentials := .raises
  preparation : Answer OrderPreparation := .raises
  recoveredPreparation : Answer (Option OrderPreparation) := .raises
  placement : Answer OrderPlacement := .raises
  recoveredPlacement : Answer (Option OrderPlacement) := .raises
  /-- `none` is a handoff. -/
  actionPreparation : Answer (Option OrderActionPreparation) := .raises
  result : Answer OrderActionResult := .raises
  recoveredResult : Answer (Option OrderActionResult) := .raises

def subjectId : String := "local"

inductive Stmt where
  /-- A query, or a reading of the clock. -/
  | look
  /-- `INSERT INTO commerce_attempts`. -/
  | insertAttempt (kind : AttemptKind) (targetId operation idempotencyKey requestDigest : String)
      (authorizationHash : Option String)
  | findByKey (kind : AttemptKind) (idempotencyKey : String)
  | findTarget (kind : AttemptKind) (targetId : String)
  | beginAttempt (kind : AttemptKind) (attemptId : String)
  | finishAttempt (attemptId : String) (facts : CommerceDb.Finish)
  | insertPreparation (preparationId : String) (payload : PreparationPayload) (prepared : OrderPreparation)
      (attemptId : String)
  | invalidatePreparation (preparationId : String)
  | insertOrder (orderId preparationId providerOrderDigest : String) (payload : PreparationPayload)
      (lifecycle : CommerceLifecycleState) (attemptId : String)
  | updateLifecycle (orderId : String) (lifecycle : CommerceLifecycleState)
  | insertActionPreparation (orderId : String) (prepared : OrderActionPreparation)
  | inspect
  | credentials
  | prepareOrder (request : PrepareOrderRequest)
  | recoverPreparation (idempotencyKey : String)
  /-- The attempt is the one that was begun for the call; the provider does not see it. -/
  | placeOrder (request : PlaceOrderRequest) (attemptId : String)
  | recoverPlacement (idempotencyKey preparationDigest : String)
  | prepareAction (request : PrepareOrderActionRequest)
  | applyAction (request : ApplyOrderActionRequest) (attemptId : String)
  | recoverAction (idempotencyKey actionDigest : String)

/-- A change that the provider was asked to make, with the attempt that was begun for it. -/
inductive Mutation where
  | placed (request : PlaceOrderRequest) (attemptId : String)
  | applied (request : ApplyOrderActionRequest) (attemptId : String)
  deriving DecidableEq

/-- The store, and what the provider was asked to do so far; no program reads the latter. -/
structure Shared where
  db : CommerceDb
  mutations : List Mutation := []

structure Reply where
  db : CommerceDb
  env : Choice

def newAttempt (kind : AttemptKind) (targetId operation idempotencyKey requestDigest : String)
    (authorizationHash : Option String) (env : Choice) : CommerceAttempt where
  attemptId := env.newId
  subjectId := subjectId
  kind := kind
  targetId := targetId
  operation := operation
  idempotencyKey := idempotencyKey
  requestDigest := requestDigest
  authorizationHash := authorizationHash
  createdAt := env.now
  updatedAt := env.now

def newPreparation (preparationId : String) (payload : PreparationPayload) (prepared : OrderPreparation)
    (attemptId : String) (env : Choice) : PreparationRecord where
  preparationId := preparationId
  subjectId := subjectId
  payload := payload
  prepared := some prepared
  preparationAttemptId := some attemptId
  createdAt := env.now

def newOrder (orderId preparationId providerOrderDigest : String) (payload : PreparationPayload)
    (lifecycle : CommerceLifecycleState) (attemptId : String) (env : Choice) : OrderRecord where
  orderId := orderId
  subjectId := subjectId
  preparationId := preparationId
  providerOrderDigest := providerOrderDigest
  payload := payload
  lifecycle := lifecycle
  placementAttemptId := some attemptId
  createdAt := env.now
  updatedAt := env.now

def newActionPreparation (orderId : String) (prepared : OrderActionPreparation) (env : Choice) : ActionPreparationRecord where
  actionId := prepared.actionRef
  subjectId := subjectId
  orderId := orderId
  prepared := prepared
  createdAt := env.now

def Stmt.write (env : Choice) (db : CommerceDb) : Stmt → CommerceDb
  | .insertAttempt kind targetId operation idempotencyKey requestDigest authorizationHash =>
    (db.insertAttempt (newAttempt kind targetId operation idempotencyKey requestDigest authorizationHash env)).2
  | .beginAttempt kind attemptId => (db.beginAttempt kind subjectId attemptId env.now).2
  | .finishAttempt attemptId facts => (db.finishAttempt subjectId attemptId facts env.now).2
  | .insertPreparation preparationId payload prepared attemptId =>
    (db.insertPreparation (newPreparation preparationId payload prepared attemptId env)).2
  | .invalidatePreparation preparationId => (db.invalidatePreparation subjectId preparationId env.now).2
  | .insertOrder orderId preparationId providerOrderDigest payload lifecycle attemptId =>
    (db.insertOrder (newOrder orderId preparationId providerOrderDigest payload lifecycle attemptId env)).2
  | .updateLifecycle orderId lifecycle => (db.updateOrderLifecycle subjectId orderId lifecycle env.now).2
  | .insertActionPreparation orderId prepared => (db.insertActionPreparation (newActionPreparation orderId prepared env)).2
  | _ => db

def Stmt.mutations : Stmt → List Mutation
  | .placeOrder request attemptId => [.placed request attemptId]
  | .applyAction request attemptId => [.applied request attemptId]
  | _ => []

def Shared.apply (s : Shared) (env : Choice) (c : Stmt) : Shared := ⟨c.write env s.db, s.mutations ++ c.mutations⟩

inductive Failure where
  | permission
  /-- `CommerceProviderError`, raised by the provider or by the runtime. -/
  | provider (code : String)
  | outcomeUnknown
  | value
  | runtime
  | integrity
  | other
  deriving DecidableEq

abbrev Prog := Program Stmt Reply

abbrev CommerceM := ExceptT Failure Prog

def ask {α : Type} (c : Stmt) (f : Reply → Except Failure α) : CommerceM α := ExceptT.mk (Program.perform c f)

def look {α : Type} (f : CommerceDb → α) : CommerceM α := ask .look fun r => .ok (f r.db)

def call {α : Type} (c : Stmt) (answer : Choice → Answer α) : CommerceM α :=
  ask c fun r => match answer r.env with
    | .returns value => .ok value
    | .outcomeUnknown => .error .outcomeUnknown
    | .rejected code => .error (.provider code)
    | .raises => .error .other

/-- A call whose `CommerceOutcomeUnknown` is caught. -/
def tryCall {α : Type} (c : Stmt) (answer : Choice → Answer α) : CommerceM (Option α) :=
  ask c fun r => match answer r.env with
    | .returns value => .ok (some value)
    | .outcomeUnknown => .ok none
    | .rejected code => .error (.provider code)
    | .raises => .error .other

structure AttemptReservation where
  created : Bool
  attempt : CommerceAttempt

def checkedReservation (created : Bool) (attempt : CommerceAttempt) (targetId operation idempotencyKey requestDigest : String)
    (authorizationHash : Option String) : CommerceM AttemptReservation :=
  if attempt.idempotencyKey = idempotencyKey ∧ (attempt.targetId ≠ targetId ∨ attempt.operation ≠ operation ∨
      attempt.requestDigest ≠ requestDigest ∨ attempt.authorizationHash ≠ authorizationHash) then throw .value
  else pure ⟨created, attempt⟩

def reserveAttempt (kind : AttemptKind) (targetId operation idempotencyKey requestDigest : String)
    (authorizationHash : Option String) : CommerceM AttemptReservation := do
  let created ← ask (.insertAttempt kind targetId operation idempotencyKey requestDigest authorizationHash) fun r =>
    .ok (decide ((r.db.insertAttempt
      (newAttempt kind targetId operation idempotencyKey requestDigest authorizationHash r.env)).1 = 1))
  match ← ask (.findByKey kind idempotencyKey) fun r => .ok (r.db.getAttemptByIdempotency subjectId kind idempotencyKey) with
  | some attempt => checkedReservation created attempt targetId operation idempotencyKey requestDigest authorizationHash
  | none =>
    match ← ask (.findTarget kind targetId) fun r => .ok (r.db.findReservedTarget subjectId kind targetId) with
    | some attempt => checkedReservation created attempt targetId operation idempotencyKey requestDigest authorizationHash
    | none => throw .runtime

/-- `begin_placement_attempt` and `begin_action_attempt`: the attempt is there for this call alone. -/
def beginAttempt (kind : AttemptKind) (attemptId : String) : CommerceM Bool := do
  let updated ← ask (.beginAttempt kind attemptId) fun r => .ok (r.db.beginAttempt kind subjectId attemptId r.env.now).1
  if updated = 1 then look fun db => (db.getAttempt subjectId attemptId).isSome
  else pure false

def finishAttempt (attempt : AttemptReservation) (facts : CommerceDb.Finish) : CommerceM Unit := do
  ask (.finishAttempt attempt.attempt.attemptId facts) fun r =>
    match (r.db.finishAttempt subjectId attempt.attempt.attemptId facts r.env.now).1 with
    | none => .error .integrity
    | some updated => if updated = 1 then .ok () else .error .value
  match ← look fun db => db.getAttempt subjectId attempt.attempt.attemptId with
  | some _ => pure ()
  | none => throw .runtime

/-- The configured merchant, the links that may be shown, the digest of a JSON value, and the clock's
comparison with the text of a time. -/
structure CommerceRuntime where
  merchantId : String
  safeLinks : Links → Links
  commerceDigest : Json → String
  isExpired : String → String → Bool

def optionText (text : Option String) : Json := (text.map .str).getD .null

def linksDump (links : Links) : Json := .dict (links.map fun link => (link.1, .str link.2))

namespace RequestedItem

def dump (item : RequestedItem) : Json :=
  .dict [("offer_id", .str item.offerId), ("variant_id", .str item.variantId), ("quantity", .int item.quantity)]

end RequestedItem

def PrepareOrderRequest.dump (request : PrepareOrderRequest) : Json :=
  .dict [("idempotency_key", .str request.idempotencyKey), ("items", .list (request.items.map RequestedItem.dump)),
    ("promotion_code", optionText request.promotionCode)]

def PlaceOrderRequest.dump (request : PlaceOrderRequest) : Json :=
  .dict [("idempotency_key", .str request.idempotencyKey), ("preparation_ref", .str request.preparationRef),
    ("preparation_digest", .str request.preparationDigest)]

def ApplyOrderActionRequest.dump (request : ApplyOrderActionRequest) : Json :=
  .dict [("idempotency_key", .str request.idempotencyKey), ("action_ref", .str request.actionRef),
    ("order_ref", .str request.orderRef), ("action_digest", .str request.actionDigest)]

def PlacementState.value : PlacementState → String
  | .succeeded => "succeeded"
  | .declined => "declined"
  | .actionRequired => "action_required"
  | .failed => "failed"
  | .outcomeUnknown => "outcome_unknown"

def OrderPlacement.dump (placement : OrderPlacement) : Json :=
  .dict ([("idempotency_key", .str placement.idempotencyKey), ("preparation_ref", .str placement.preparationRef),
    ("state", .str placement.state.value), ("order_ref", optionText placement.orderRef),
    ("lifecycle", .dict placement.lifecycle), ("links", linksDump placement.links)] ++ placement.details)

def OrderActionResultState.value : OrderActionResultState → String
  | .pending => "pending"
  | .completed => "completed"
  | .rejected => "rejected"
  | .failed => "failed"
  | .outcomeUnknown => "outcome_unknown"

def OrderActionResult.dump (result : OrderActionResult) : Json :=
  .dict ([("idempotency_key", .str result.idempotencyKey), ("action_ref", .str result.actionRef),
    ("order_ref", .str result.orderRef), ("state", .str result.state.value), ("lifecycle", .dict result.lifecycle),
    ("links", linksDump result.links)] ++ result.details)

def OrderActionKind.value : OrderActionKind → String
  | .cancel => "cancel"
  | .partialCancel => "partial_cancel"
  | .return => "return"
  | .partialReturn => "partial_return"
  | .refundRequest => "refund_request"

def RefundMethod.value : RefundMethod → String
  | .originalPaymentMethod => "original_payment_method"
  | .storeCredit => "store_credit"

/-- `PreparationPayload` of a preparation. -/
def payloadOf (preparation : OrderPreparation) : PreparationPayload :=
  ⟨preparation.items, preparation.total, preparation.details⟩

section Runtime

variable (rt : CommerceRuntime)

def requireOwnedPreparation (preparationRef : String) : CommerceM PreparationRecord := do
  match ← look fun db => db.getPreparation subjectId preparationRef with
  | some record => pure record
  | none => throw .permission

def requireOwnedOrder (orderRef : String) : CommerceM OrderRecord := do
  match ← look fun db => db.getOrder subjectId orderRef with
  | some record => pure record
  | none => throw .permission

def inspect : CommerceM CommerceInspection := do
  match ← call .inspect (·.inspection) with
  | .product merchantId =>
    if merchantId ≠ rt.merchantId then throw (.provider "MERCHANT_MISMATCH") else pure (.product merchantId)
  | inspection => pure inspection

def sanitizedPreparation (preparation : OrderPreparation) : OrderPreparation :=
  { preparation with links := rt.safeLinks preparation.links }

def savePreparation (preparation : OrderPreparation) (attempt : AttemptReservation) : CommerceM Unit := do
  match ← look fun db => db.getAttempt subjectId attempt.attempt.attemptId with
  | none => throw .value
  | some row =>
    if row.kind ≠ .preparation then throw .value
    else do
      let ref := preparation.preparationRef
      let created ← ask (.insertPreparation ref (payloadOf preparation) preparation attempt.attempt.attemptId) fun r =>
        .ok (r.db.insertPreparation (newPreparation ref (payloadOf preparation) preparation attempt.attempt.attemptId r.env)).1
      match ← look fun db => db.getPreparation subjectId ref with
      | none => if created ≠ 1 then throw .value else throw .runtime
      | some record =>
        if created ≠ 1 ∧ (record.payload ≠ payloadOf preparation ∨ record.prepared ≠ some preparation) then throw .value
        else pure ()

def validatedPreparation (preparation : OrderPreparation) (attempt : AttemptReservation) : CommerceM OrderPreparation :=
  if preparation.merchantId ≠ rt.merchantId then do
    finishAttempt attempt { state := .failed }
    throw (.provider "MERCHANT_MISMATCH")
  else do
    let preparation := sanitizedPreparation rt preparation
    savePreparation preparation attempt
    finishAttempt attempt {
      state := .succeeded
      responseDigest := some preparation.preparationDigest
      providerReferenceDigest := some (rt.commerceDigest (.str preparation.preparationRef)) }
    pure preparation

/-- The target of `_reserve_preparation`. -/
def preparationTarget (items : List RequestedItem) (promotionCode : Option String) : String :=
  rt.commerceDigest (.dict [("merchant_id", .str rt.merchantId), ("items", .list (items.map RequestedItem.dump)),
    ("promotion_code", optionText promotionCode)])

def prepareOrder (request : PrepareOrderRequest) : CommerceM OrderPreparation := do
  let attempt ← reserveAttempt .preparation (preparationTarget rt request.items request.promotionCode) "prepare"
    request.idempotencyKey (rt.commerceDigest request.dump) none
  if attempt.created then
    match ← tryCall (.prepareOrder request) (·.preparation) with
    | some preparation => validatedPreparation rt preparation attempt
    | none =>
      match ← call (.recoverPreparation request.idempotencyKey) (·.recoveredPreparation) with
      | some preparation => validatedPreparation rt preparation attempt
      | none => do
        finishAttempt attempt { state := .outcomeUnknown }
        throw .outcomeUnknown
  else
    match ← call (.recoverPreparation attempt.attempt.idempotencyKey) (·.recoveredPreparation) with
    | some preparation => validatedPreparation rt preparation attempt
    | none => throw .runtime

structure PrepareArgs where
  items : List RequestedItem
  promotionCode : Option String := none
  deriving DecidableEq

def preparePublic (args : PrepareArgs) : CommerceM OrderPreparation :=
  prepareOrder rt ⟨preparationTarget rt args.items args.promotionCode, args.items, args.promotionCode⟩

structure PlaceArgs where
  preparationRef : String
  preparation : OrderPreparation
  preparationDigest : String
  deriving DecidableEq

def validatedPlacePreparation (args : PlaceArgs) : CommerceM OrderPreparation := do
  let record ← requireOwnedPreparation args.preparationRef
  if record.invalidatedAt.isSome ∨ record.prepared ≠ some args.preparation ∨
      args.preparation.preparationRef ≠ args.preparationRef ∨ args.preparation.preparationDigest ≠ args.preparationDigest then
    throw (.provider "STALE_PREPARATION")
  else if args.preparation.merchantId ≠ rt.merchantId then throw (.provider "MERCHANT_MISMATCH")
  else do
    let expired ← ask .look fun r => .ok (rt.isExpired args.preparation.expiresAt r.env.now)
    if args.preparation.state ≠ .prepared ∨ expired = true then throw (.provider "STALE_PREPARATION")
    else pure args.preparation

def checkoutOf (preparation : OrderPreparation) : CheckoutInspection :=
  ⟨preparation.checkoutRevision, preparation.items, preparation.subtotal, preparation.total, preparation.warnings⟩

def refreshPreparation (preparation : OrderPreparation) : CommerceM Unit := do
  let refreshed ← inspect rt
  if refreshed ≠ .checkout (checkoutOf preparation) then throw (.provider "STALE_PREPARATION") else pure ()

def resolvePlacementCredentials (preparation : OrderPreparation) : CommerceM Unit := do
  let credentials ← call .credentials (·.credentials)
  if credentials ≠ ⟨preparation.buyerLabel, preparation.destinationLabel, preparation.paymentLabel⟩ then
    throw (.provider "STALE_PREPARATION")
  else pure ()

/-- `_reserve_placement` with `reserve_placement`. -/
def reservePlacement (request : PlaceOrderRequest) (authorizationHash : Option String) : CommerceM AttemptReservation := do
  let preparation ← requireOwnedPreparation request.preparationRef
  if preparation.invalidatedAt.isSome then throw (.provider "STALE_PREPARATION")
  else
    match ← look fun db => db.getPreparation subjectId request.preparationRef with
    | none => throw .value
    | some record =>
      if record.invalidatedAt.isSome then throw .value
      else
        reserveAttempt .placement request.preparationRef "place" request.idempotencyKey
          (rt.commerceDigest request.dump) authorizationHash

def saveOrder (orderRef : String) (placement : OrderPlacement) (attempt : AttemptReservation) : CommerceM Unit := do
  match ← look fun db => db.getPreparation subjectId placement.preparationRef with
  | none => throw .value
  | some preparation =>
    match ← look fun db => db.getAttempt subjectId attempt.attempt.attemptId with
    | none => throw .value
    | some row =>
      if row.kind ≠ .placement ∨ row.targetId ≠ placement.preparationRef then throw .value
      else do
        let digest := rt.commerceDigest (.str orderRef)
        let created ← ask (.insertOrder orderRef placement.preparationRef digest preparation.payload placement.lifecycle
            attempt.attempt.attemptId) fun r =>
          match (r.db.insertOrder (newOrder orderRef placement.preparationRef digest preparation.payload
            placement.lifecycle attempt.attempt.attemptId r.env)).1 with
          | none => .error .integrity
          | some created => .ok created
        match ← look fun db => db.getOrder subjectId orderRef with
        | none => if created ≠ 1 then throw .value else throw .runtime
        | some record =>
          if created ≠ 1 ∧ (record.preparationId ≠ placement.preparationRef ∨ record.providerOrderDigest ≠ digest) then
            throw .value
          else pure ()

/-- The facts that `_persist_placement` finishes an attempt with. -/
def placementFacts (placement : OrderPlacement) : CommerceDb.Finish where
  state := match placement.state with
    | .succeeded => .succeeded
    | .outcomeUnknown => .outcomeUnknown
    | _ => .failed
  responseDigest := some (rt.commerceDigest placement.dump)
  providerReferenceDigest := placement.orderRef.map fun ref => rt.commerceDigest (.str ref)

def persistPlacement (placement : OrderPlacement) (attempt : AttemptReservation) : CommerceM Unit :=
  match placement.orderRef with
  | some orderRef => do
    saveOrder rt orderRef placement attempt
    finishAttempt attempt (placementFacts rt placement)
  | none => finishAttempt attempt (placementFacts rt placement)

/-- `none` is a handoff. -/
def placementResult (placement : OrderPlacement) (attempt : AttemptReservation) : CommerceM (Option OrderPlacement) := do
  let placement := { placement with links := rt.safeLinks placement.links }
  persistPlacement rt placement attempt
  if placement.state ≠ .actionRequired then pure (some placement)
  else do
    let updated ← ask (.invalidatePreparation placement.preparationRef) fun r =>
      .ok (r.db.invalidatePreparation subjectId placement.preparationRef r.env.now).1
    if updated ≠ 1 then throw .value
    else
      match ← look fun db => db.getPreparation subjectId placement.preparationRef with
      | none => throw .runtime
      | some _ => pure none

/-- `_validate_placement_result` and `_placement_result`. -/
def settlePlacement (request : PlaceOrderRequest) (placement : OrderPlacement) (attempt : AttemptReservation) :
    CommerceM (Option OrderPlacement) :=
  if placement.idempotencyKey ≠ request.idempotencyKey ∨ placement.preparationRef ≠ request.preparationRef then do
    finishAttempt attempt { state := .outcomeUnknown }
    throw .outcomeUnknown
  else placementResult rt placement attempt

def recoverPlacement (request : PlaceOrderRequest) : CommerceM (Option OrderPlacement) :=
  call (.recoverPlacement request.idempotencyKey request.preparationDigest) (·.recoveredPlacement)

def placeOrder (request : PlaceOrderRequest) (authorizationHash : Option String) : CommerceM (Option OrderPlacement) := do
  let attempt ← reservePlacement rt request authorizationHash
  let submitting ← beginAttempt .placement attempt.attempt.attemptId
  if submitting then
    match ← tryCall (.placeOrder request attempt.attempt.attemptId) (·.placement) with
    | some placement => settlePlacement rt request placement attempt
    | none =>
      match ← recoverPlacement request with
      | some placement => settlePlacement rt request placement attempt
      | none => do
        finishAttempt attempt { state := .outcomeUnknown }
        throw .outcomeUnknown
  else do
    let recoveryRequest := { request with idempotencyKey := attempt.attempt.idempotencyKey }
    match ← recoverPlacement recoveryRequest with
    | some placement => settlePlacement rt recoveryRequest placement attempt
    | none => throw .outcomeUnknown

/-- The request of `place_public`. -/
def placeRequest (preparation : OrderPreparation) : PlaceOrderRequest where
  idempotencyKey := rt.commerceDigest (.dict [("subject_id", .str subjectId),
    ("preparation_ref", .str preparation.preparationRef), ("preparation_digest", .str preparation.preparationDigest)])
  preparationRef := preparation.preparationRef
  preparationDigest := preparation.preparationDigest

def placePublic (args : PlaceArgs) (authorizationHash : String) : CommerceM (Option OrderPlacement) := do
  let preparation ← validatedPlacePreparation rt args
  refreshPreparation rt preparation
  resolvePlacementCredentials preparation
  placeOrder rt (placeRequest rt preparation) (some authorizationHash)

structure PrepareActionArgs where
  localOrderRef : String
  orderRevision : String
  kind : OrderActionKind
  lineItemIds : List String
  quantity : Option ℕ
  reason : Option String
  refundMethod : Option RefundMethod
  deriving DecidableEq

/-- The request of `prepare_action_public`. -/
def actionRequest (args : PrepareActionArgs) : PrepareOrderActionRequest where
  idempotencyKey := rt.commerceDigest (.dict [("subject_id", .str subjectId), ("local_order_ref", .str args.localOrderRef),
    ("order_revision", .str args.orderRevision), ("kind", .str (OrderActionKind.value args.kind)),
    ("line_item_ids", .list (args.lineItemIds.map .str)), ("quantity", (args.quantity.map fun n => Json.int n).getD .null),
    ("reason", optionText args.reason), ("refund_method", optionText (args.refundMethod.map RefundMethod.value))])
  orderRef := args.localOrderRef
  orderRevision := args.orderRevision
  kind := args.kind
  lineItemIds := args.lineItemIds
  quantity := args.quantity
  reason := args.reason
  refundMethod := args.refundMethod

/-- `validate_action_details`. -/
def validDetails (request : PrepareOrderActionRequest) : Bool :=
  ¬(request.kind ∈ [.partialCancel, .partialReturn] ∧ (request.lineItemIds = [] ∨ request.quantity = none)) ∧
    ¬(request.kind ∈ [.return, .partialReturn, .refundRequest] ∧ (request.reason.getD "" = "")) ∧
    ¬(request.kind = .refundRequest ∧ request.refundMethod = none)

/-- The item of a dictionary by `line_item_id`, where the last of several entries stays. -/
def itemOf (inspection : OrderInspection) (lineItemId : String) : Option LineItem :=
  inspection.items.reverse.find? (·.lineItemId = some lineItemId)

/-- `_validate_action_items` finds nothing wrong. -/
def validItems (request : PrepareOrderActionRequest) (inspection : OrderInspection) : Bool :=
  request.lineItemIds.all fun lineItemId =>
    match itemOf inspection lineItemId with
    | none => false
    | some item => request.quantity.all (· ≤ item.quantity)

def expectedItems (request : PrepareOrderActionRequest) (inspection : OrderInspection) : List OrderActionItem :=
  if request.lineItemIds ≠ [] then
    request.lineItemIds.map fun lineItemId => ⟨lineItemId, if request.quantity.getD 0 = 0 then 1 else request.quantity.getD 0⟩
  else inspection.items.filterMap fun item => item.lineItemId.map fun lineItemId => ⟨lineItemId, item.quantity⟩

def logisticsMatch (request : PrepareOrderActionRequest) (preparation : OrderActionPreparation) : Bool :=
  if request.kind ∈ [.return, .partialReturn] then
    preparation.returnDestination.isSome ∧ preparation.returnMethod.isSome ∧ preparation.shipmentResponsibility.isSome ∧
      preparation.deadlines ≠ []
  else
    preparation.returnDestination = none ∧ preparation.returnMethod = none ∧ preparation.shipmentResponsibility = none ∧
      preparation.deadlines = []

/-- `_validate_action_preparation_response` finds nothing wrong. -/
def validResponse (request : PrepareOrderActionRequest) (inspection : OrderInspection)
    (preparation : OrderActionPreparation) : Bool :=
  preparation.orderRef = request.orderRef ∧ preparation.orderRevision = request.orderRevision ∧
    preparation.kind = request.kind ∧ preparation.affectedItems = expectedItems request inspection ∧
    preparation.reason = request.reason ∧ preparation.refundMethod = request.refundMethod ∧
    preparation.fees.currency = inspection.total.currency ∧ preparation.refund.currency = inspection.total.currency ∧
    logisticsMatch request preparation ∧ preparation.refundDestination.isSome = request.refundMethod.isSome

def saveActionPreparation (orderId : String) (prepared : OrderActionPreparation) : CommerceM Unit := do
  match ← look fun db => db.getOrder subjectId orderId with
  | none => throw .value
  | some _ => do
    let created ← ask (.insertActionPreparation orderId prepared) fun r =>
      .ok (r.db.insertActionPreparation (newActionPreparation orderId prepared r.env)).1
    match ← look fun db => db.getActionPreparation subjectId prepared.actionRef with
    | none => if created ≠ 1 then throw .value else throw .runtime
    | some record =>
      if created ≠ 1 ∧ (record.orderId ≠ orderId ∨ record.prepared ≠ prepared) then throw .value else pure ()

/-- `none` is a handoff. -/
def prepareActionPublic (args : PrepareActionArgs) : CommerceM (Option OrderActionPreparation) := do
  let _ ← requireOwnedOrder args.localOrderRef
  let request := actionRequest rt args
  if validDetails request = false then throw .value
  else
    match ← inspect rt with
    | .order current =>
      if current.revision ≠ request.orderRevision then throw (.provider "STALE_REVISION")
      else if validItems request current = false then throw (.provider "ACTION_INELIGIBLE")
      else
        match ← call (.prepareAction request) (·.actionPreparation) with
        | none => pure none
        | some preparation =>
          if validResponse request current preparation = false then throw (.provider "INVALID_RESPONSE")
          else do
            saveActionPreparation args.localOrderRef preparation
            pure (some preparation)
    | _ => throw (.provider "STALE_REVISION")

structure ApplyArgs where
  actionRef : String
  actionDigest : String
  preparation : OrderActionPreparation
  deriving DecidableEq

/-- The arguments with which `_validated_action_preparation` asks for the action again. -/
def refreshArgs (supplied : OrderActionPreparation) : PrepareActionArgs :=
  let isPartial := supplied.kind = .partialCancel ∨ supplied.kind = .partialReturn
  { localOrderRef := supplied.orderRef
    orderRevision := supplied.orderRevision
    kind := supplied.kind
    lineItemIds := if isPartial then supplied.affectedItems.map (·.lineItemId) else []
    quantity := if isPartial then supplied.affectedItems.head?.map (·.quantity) else none
    reason := supplied.reason
    refundMethod := supplied.refundMethod }

def validatedActionPreparation (args : ApplyArgs) : CommerceM OrderActionPreparation := do
  let supplied := args.preparation
  let expired ← ask .look fun r => .ok (rt.isExpired supplied.expiresAt r.env.now)
  if supplied.actionRef ≠ args.actionRef ∨ supplied.actionDigest ≠ args.actionDigest ∨ supplied.eligible = false ∨
      expired = true then throw (.provider "STALE_PREPARATION")
  else do
    let _ ← requireOwnedOrder supplied.orderRef
    match ← look fun db => db.getActionPreparation subjectId supplied.actionRef with
    | none => throw (.provider "STALE_PREPARATION")
    | some record =>
      if record.invalidatedAt.isSome ∨ record.prepared ≠ supplied then throw (.provider "STALE_PREPARATION")
      else do
        let refreshed ← prepareActionPublic rt (refreshArgs supplied)
        if refreshed ≠ some supplied then throw (.provider "STALE_PREPARATION") else pure supplied

def reserveAction (request : ApplyOrderActionRequest) (authorizationHash : Option String) : CommerceM AttemptReservation := do
  match ← look fun db => db.getOrder subjectId request.orderRef with
  | none => throw .value
  | some _ =>
    reserveAttempt .action request.orderRef "apply" request.idempotencyKey (rt.commerceDigest request.dump)
      authorizationHash

/-- The facts that `_action_result` finishes an attempt with. -/
def actionFacts (result : OrderActionResult) : CommerceDb.Finish where
  state := match result.state with
    | .completed => .succeeded
    | .outcomeUnknown => .outcomeUnknown
    | _ => .failed
  responseDigest := some (rt.commerceDigest result.dump)
  providerReferenceDigest := some (rt.commerceDigest (.str result.actionRef))

def actionResult (result : OrderActionResult) (attempt : AttemptReservation) : CommerceM OrderActionResult := do
  let result := { result with links := rt.safeLinks result.links }
  let updated ← ask (.updateLifecycle result.orderRef result.lifecycle) fun r =>
    .ok (r.db.updateOrderLifecycle subjectId result.orderRef result.lifecycle r.env.now).1
  if updated ≠ 1 then throw .value
  else
    match ← look fun db => db.getOrder subjectId result.orderRef with
    | none => throw .runtime
    | some _ =>
      if result.state = .pending then pure result
      else do
        finishAttempt attempt (actionFacts rt result)
        pure result

/-- `_validate_action_result` and `_action_result`. -/
def settleAction (request : ApplyOrderActionRequest) (result : OrderActionResult) (attempt : AttemptReservation) :
    CommerceM OrderActionResult :=
  if result.idempotencyKey ≠ request.idempotencyKey ∨ result.actionRef ≠ request.actionRef ∨
      result.orderRef ≠ request.orderRef then do
    finishAttempt attempt { state := .outcomeUnknown }
    throw .outcomeUnknown
  else actionResult rt result attempt

def recoverAction (request : ApplyOrderActionRequest) : CommerceM (Option OrderActionResult) :=
  call (.recoverAction request.idempotencyKey request.actionDigest) (·.recoveredResult)

def applyAction (request : ApplyOrderActionRequest) (authorizationHash : Option String) : CommerceM OrderActionResult := do
  let attempt ← reserveAction rt request authorizationHash
  if attempt.created = false ∧ attempt.attempt.idempotencyKey ≠ request.idempotencyKey then
    throw (.provider "ACTION_ALREADY_OPEN")
  else do
    let submitting ← beginAttempt .action attempt.attempt.attemptId
    if submitting then
      match ← tryCall (.applyAction request attempt.attempt.attemptId) (·.result) with
      | some result => settleAction rt request result attempt
      | none =>
        match ← recoverAction request with
        | some result => settleAction rt request result attempt
        | none => do
          finishAttempt attempt { state := .outcomeUnknown }
          throw .outcomeUnknown
    else
      match ← recoverAction request with
      | some result => settleAction rt request result attempt
      | none => throw .outcomeUnknown

/-- The request of `apply_action_public`. -/
def applyRequest (preparation : OrderActionPreparation) : ApplyOrderActionRequest where
  idempotencyKey := rt.commerceDigest (.dict [("subject_id", .str subjectId), ("action_ref", .str preparation.actionRef),
    ("action_digest", .str preparation.actionDigest)])
  actionRef := preparation.actionRef
  orderRef := preparation.orderRef
  actionDigest := preparation.actionDigest

def applyActionPublic (args : ApplyArgs) (authorizationHash : String) : CommerceM OrderActionResult := do
  let preparation ← validatedActionPreparation rt args
  applyAction rt (applyRequest rt preparation) (some authorizationHash)

inductive Op where
  | preparePublic (args : PrepareArgs)
  | placePublic (args : PlaceArgs) (authorizationHash : String)
  | prepareActionPublic (args : PrepareActionArgs)
  | applyActionPublic (args : ApplyArgs) (authorizationHash : String)
  deriving DecidableEq

inductive Result where
  | prepared (preparation : OrderPreparation)
  | placed (placement : Option OrderPlacement)
  | actionPrepared (preparation : Option OrderActionPreparation)
  | applied (result : OrderActionResult)
  deriving DecidableEq

def program : Op → CommerceM Result
  | .preparePublic args => do return .prepared (← preparePublic rt args)
  | .placePublic args authorizationHash => do return .placed (← placePublic rt args authorizationHash)
  | .prepareActionPublic args => do return .actionPrepared (← prepareActionPublic rt args)
  | .applyActionPublic args authorizationHash => do return .applied (← applyActionPublic rt args authorizationHash)

end Runtime

end OpenMinion.CommercePrograms
