import Mathlib.Data.List.MinMax
import Mathlib.Data.List.Sort
import Mathlib.Data.String.Basic
import OpenMinion.IsoTimestamps
import OpenMinion.JsonValues
import OpenMinion.KeyedTables

/-!
# The policy store

Grants and pending confirmations, and the calls of the store on them. A call that raises inside its transaction leaves
the tables; `resolve_active_grant_for_use` is a read and a conditional update.
-/
namespace OpenMinion.PolicyTables
open IsoTimestamps JsonValues KeyedTables

inductive RiskClass where
  | read
  | write
  | exec
  | stateChange
  | destructive
  | financial
  | security
  deriving DecidableEq

inductive SideEffects where
  | none
  | locally
  | remote
  | externalAccount
  deriving DecidableEq

inductive Reversibility where
  | reversible
  | partiallyReversible
  | irreversible
  | unknown
  deriving DecidableEq

structure PolicyAuthorizationDescriptor where
  riskClass : RiskClass
  sideEffects : SideEffects
  reversibility : Reversibility
  confirmationTtlSeconds : ℤ
  requiredSubjectId : Option String := none
  requiresSession : Bool := false
  deriving DecidableEq

def policyAuthorizationDescriptors : List ((String × String) × PolicyAuthorizationDescriptor) :=
  [(("blockchain", "send_transaction"), ⟨.financial, .externalAccount, .irreversible, 600, none, false⟩),
    (("commerce", "prepare_order"), ⟨.stateChange, .externalAccount, .reversible, 600, some "local", true⟩),
    (("commerce", "place_order"), ⟨.financial, .externalAccount, .irreversible, 600, some "local", true⟩),
    (("commerce", "apply_order_action"),
      ⟨.financial, .externalAccount, .partiallyReversible, 600, some "local", true⟩)]

def policyAuthorizationPairs : List (String × String) := policyAuthorizationDescriptors.map Prod.fst

def isPolicyAuthorizationPair (tool method : String) : Bool := (tool, method) ∈ policyAuthorizationPairs

/-- `POLICY_AUTHORIZATION_DESCRIPTORS.get((tool, method))`. -/
def authorizationDescriptor (tool method : String) : Option PolicyAuthorizationDescriptor :=
  policyAuthorizationDescriptors.lookup (tool, method)

def isExactBlockchainSend (tool method : String) : Bool := tool = "blockchain" ∧ method = "send_transaction"

def isExactOpsCommand (tool method : String) : Bool := tool = "ops.command" ∧ method = "run"

/-- Membership in `EXACT_CONFIRMATION_PAIRS`. -/
def isExactConfirmationPair (tool method : String) : Bool :=
  isPolicyAuthorizationPair tool method || isExactOpsCommand tool method

inductive GrantEffect where
  | allow
  | deny
  deriving DecidableEq

inductive DurationType where
  | once
  | untilTime
  | session
  | forever
  deriving DecidableEq

structure PolicyGrantInput where
  effect : GrantEffect
  tool : String := "*"
  method : String := "*"
  targetJson : Dict := []
  durationType : DurationType := .forever
  subjectId : String := "local"
  expiresAt : Option String := none
  sessionId : Option String := none
  invocationHash : Option String := none
  maxUses : Option ℤ := none
  reason : Option String := none
  createdTraceId : Option String := none
  riskFloor : Option RiskClass := none
  approvalId : Option String := none
  deriving DecidableEq

structure PolicyGrant extends PolicyGrantInput where
  grantId : String
  usesCount : ℕ := 0
  createdAt : String
  updatedAt : String
  revokedAt : Option String := none
  deriving DecidableEq

inductive ConfirmationState where
  | pending
  | allowed
  | denied
  | expired
  deriving DecidableEq

structure PendingPolicyConfirmation where
  approvalId : String
  subjectId : String
  tool : String
  method : String
  invocationHash : String
  invocationId : String
  traceId : Option String
  sessionId : Option String
  preview : Dict
  state : ConfirmationState := .pending
  resolutionAction : Option String := none
  grantId : Option String := none
  createdAt : String
  expiresAt : String
  resolvedAt : Option String := none
  deriving DecidableEq

inductive PolicyMode where
  | disabled
  | logOnly
  | enforce
  | enforceSafe
  deriving DecidableEq

/-- The tables, and the setting `mode`. -/
structure PolicyStore where
  grants : List PolicyGrant := []
  confirmations : List PendingPolicyConfirmation := []
  mode : Option PolicyMode := none

/-- What the store and the service raise. `escaped` stands for the exceptions of code that is
not modelled: the parser of previews, patterns, texts and paths. -/
inductive PolicyError where
  | control (code message : String) (approvalId : Option String)
  | value (message : String)
  | type
  | integrity
  | overflow
  | assertion
  | escaped
  deriving DecidableEq

/-- `_insert_grant`: the grant id is the primary key. -/
def insertGrant (s : PolicyStore) (grantId : String) (grant : PolicyGrantInput) (now : String) :
    Except PolicyError PolicyStore :=
  if s.grants.any fun g => g.grantId = grantId then .error .integrity
  else .ok { s with grants :=
    s.grants ++ [{ toPolicyGrantInput := grant, grantId := grantId, createdAt := now, updatedAt := now }] }

def transaction {Result : Type} (s : PolicyStore) (body : Except PolicyError (Result × PolicyStore)) :
    Except PolicyError Result × PolicyStore :=
  match body with
  | .ok (result, s') => (.ok result, s')
  | .error e => (.error e, s)

def createGrant (s : PolicyStore) (grantId : String) (grant : PolicyGrantInput) (now : DateTime) :
    Except PolicyError String × PolicyStore :=
  transaction s ((insertGrant s grantId grant (toIsoUtc now)).map fun s' => (grantId, s'))

/-- `expires_at IS NULL OR expires_at > now`. -/
def unexpiredAt (now : String) (g : PolicyGrant) : Bool :=
  match g.expiresAt with
  | none => true
  | some expiresAt => now < expiresAt

/-- `max_uses IS NULL OR uses_count < max_uses`. -/
def hasUsesLeft (g : PolicyGrant) : Bool :=
  match g.maxUses with
  | none => true
  | some maxUses => (g.usesCount : ℤ) < maxUses

def revoke (now : String) (g : PolicyGrant) : PolicyGrant := { g with revokedAt := some now, updatedAt := now }

/-- `UPDATE policy_grants SET revoked_at = now .. WHERE p AND revoked_at IS NULL`. -/
def revokeWhere (p : PolicyGrant → Bool) (now : String) (grants : List PolicyGrant) : List PolicyGrant :=
  updateWhere (fun g => p g && g.revokedAt.isNone) (revoke now) grants

def revokeGrant (s : PolicyStore) (grantId : String) (now : DateTime) : Bool × PolicyStore :=
  (s.grants.any fun g => g.grantId = grantId && g.revokedAt.isNone,
    { s with grants := revokeWhere (fun g => g.grantId = grantId) (toIsoUtc now) s.grants })

def cleanupExpired (s : PolicyStore) (now : DateTime) : PolicyStore :=
  { s with grants := revokeWhere (fun g => !unexpiredAt (toIsoUtc now) g) (toIsoUtc now) s.grants }

/-- `list_grants(subject_id, active_only=True)`. -/
def listActiveGrants (s : PolicyStore) (subjectId : String) (now : DateTime) : List PolicyGrant :=
  (s.grants.filter fun g => (subjectId = "" || g.subjectId = subjectId) && g.revokedAt.isNone &&
    unexpiredAt (toIsoUtc now) g).insertionSort fun a b => b.createdAt ≤ a.createdAt

def getGrant (s : PolicyStore) (grantId : String) : Option PolicyGrant :=
  lookup PolicyGrant.grantId grantId s.grants

/-- The time at which the next use revokes a grant, as the calls compute it from the grant
that they have read. -/
def revokeAtUse (now : String) (g : PolicyGrant) : Option String :=
  if g.durationType = .once || g.maxUses.any (fun maxUses => maxUses ≤ (g.usesCount : ℤ) + 1) then some now else none

def useGrant (now : String) (revokeAt : Option String) (g : PolicyGrant) : PolicyGrant :=
  { g with usesCount := g.usesCount + 1, updatedAt := now, revokedAt := revokeAt.or g.revokedAt }

def spendWhere (p : PolicyGrant → Bool) (now : String) (revokeAt : Option String) (grants : List PolicyGrant) :
    Bool × List PolicyGrant :=
  ((grants.filter p).length = 1, updateWhere p (useGrant now revokeAt) grants)

/-- The `WHERE` of the updates of `consume_grant_use` and `resolve_active_grant_for_use`. -/
def isUsable (grantId now : String) (g : PolicyGrant) : Bool :=
  g.grantId = grantId && g.revokedAt.isNone && unexpiredAt now g && hasUsesLeft g

def consumeGrantUse (s : PolicyStore) (grantId : String) (now : DateTime) : Option PolicyGrant × PolicyStore :=
  match getGrant s grantId with
  | none => (none, s)
  | some g =>
    if g.revokedAt.isSome || !unexpiredAt (toIsoUtc now) g || !hasUsesLeft g then (none, s)
    else
      let (updated, grants) :=
        spendWhere (isUsable grantId (toIsoUtc now)) (toIsoUtc now) (revokeAtUse (toIsoUtc now) g) s.grants
      let s' := { s with grants := grants }
      (if updated then getGrant s' grantId else none, s')

mutual
def mappingContains (value : Dict) : Dict → Bool
  | [] => true
  | (key, expected) :: required => valueContains (Dict.get value key) expected && mappingContains value required

def valueContains (actual : Json) : Json → Bool
  | .dict required =>
    match actual with
    | .dict value => mappingContains value required
    | _ => false
  | expected => actual.pyEq expected
end

/-- The read of `resolve_active_grant_for_use`. -/
def selectActiveGrant (s : PolicyStore) (grantId subjectId tool method : String) (requiredTarget : Option Dict)
    (now : DateTime) : Option PolicyGrant :=
  match s.grants.find? fun g => isUsable grantId (toIsoUtc now) g && g.subjectId = subjectId &&
      g.effect = .allow && g.tool = tool && g.method = method with
  | none => none
  | some g => if requiredTarget.all fun required => mappingContains g.targetJson required then some g else none

/-- The update of `resolve_active_grant_for_use`, which returns the grant as it was read. -/
def spendActiveGrant (s : PolicyStore) (read : PolicyGrant) (now : DateTime) : Option PolicyGrant × PolicyStore :=
  let (updated, grants) :=
    spendWhere (isUsable read.grantId (toIsoUtc now)) (toIsoUtc now) (revokeAtUse (toIsoUtc now) read) s.grants
  (if updated then some read else none, { s with grants := grants })

/-- `BLOCKCHAIN_CONFIRMATION_PREVIEW_INVALID_MESSAGE`. -/
def previewInvalidMessage : String := "Blockchain transaction approval preview could not be verified."

def previewInvalidError (approvalId : String) : PolicyError :=
  .control "BLOCKCHAIN_CONFIRMATION_PREVIEW_INVALID" previewInvalidMessage (some approvalId)

section Previews

-- `_blockchain_preview_is_invalid`; its parser may also raise.
variable (previewIsInvalid : Dict → Except PolicyError Bool)

def hasInvalidPreview (row : PendingPolicyConfirmation) : Except PolicyError Bool :=
  if isExactBlockchainSend row.tool row.method then previewIsInvalid row.preview else .ok false

/-- `UPDATE .. SET state = 'denied', resolution_action = 'deny' .. WHERE state = 'pending'`. -/
def denyPending (approvalId now : String) (rows : List PendingPolicyConfirmation) : List PendingPolicyConfirmation :=
  updateWhere (fun r => r.approvalId = approvalId && r.state = .pending)
    (fun r => { r with state := .denied, resolutionAction := some "deny", resolvedAt := some now }) rows

structure ConfirmationRequest where
  subjectId : String
  tool : String
  method : String
  invocationHash : String
  invocationId : String
  traceId : Option String
  sessionId : Option String
  preview : Dict
  ttlSeconds : ℤ

def findPending (s : PolicyStore) (request : ConfirmationRequest) (now : String) : Option PendingPolicyConfirmation :=
  (s.confirmations.filter fun r => r.subjectId = request.subjectId && r.tool = request.tool &&
    r.method = request.method && r.invocationHash = request.invocationHash && r.state = .pending &&
    r.sessionId.getD "" = request.sessionId.getD "" && now < r.expiresAt).argmax fun r => r.createdAt

def pendingRow (approvalId : String) (request : ConfirmationRequest) (now expiresAt : String) :
    PendingPolicyConfirmation :=
  { approvalId := approvalId, subjectId := request.subjectId, tool := request.tool, method := request.method,
    invocationHash := request.invocationHash, invocationId := request.invocationId, traceId := request.traceId,
    sessionId := request.sessionId, preview := request.preview, createdAt := now, expiresAt := expiresAt }

def insertPending (s : PolicyStore) (approvalId : String) (request : ConfirmationRequest) (now expiresAt : String) :
    Except PolicyError (PendingPolicyConfirmation × PolicyStore) :=
  if s.confirmations.any fun r => r.approvalId = approvalId then .error .integrity
  else .ok (pendingRow approvalId request now expiresAt,
    { s with confirmations := s.confirmations ++ [pendingRow approvalId request now expiresAt] })

def getOrCreatePendingConfirmation (s : PolicyStore) (request : ConfirmationRequest) (now ttlFrom : DateTime)
    (approvalId : String) : Except PolicyError PendingPolicyConfirmation × PolicyStore :=
  match ttlFrom.addSeconds request.ttlSeconds with
  | none => (.error .overflow, s)
  | some expiresAt => transaction s (
    match findPending s request (toIsoUtc now) with
    | none => insertPending s approvalId request (toIsoUtc now) (toIsoUtc expiresAt)
    | some row =>
      match hasInvalidPreview previewIsInvalid row with
      | .error e => .error e
      | .ok false => .ok (row, s)
      | .ok true =>
        insertPending { s with confirmations := denyPending row.approvalId (toIsoUtc now) s.confirmations } approvalId
          request (toIsoUtc now) (toIsoUtc expiresAt))

def confirmedGrant (row : PendingPolicyConfirmation) : PolicyGrantInput :=
  { effect := .allow, subjectId := row.subjectId, tool := row.tool, method := row.method, durationType := .once,
    sessionId := row.sessionId, invocationHash := some row.invocationHash, maxUses := some 1,
    reason := some "created_from_confirmation:allow_once", createdTraceId := row.traceId,
    approvalId := some row.approvalId }

/-- The last update of `resolve_confirmation`. -/
def settlePending (approvalId : String) (state : ConfirmationState) (action : String) (grantId : Option String)
    (now : String) (rows : List PendingPolicyConfirmation) : List PendingPolicyConfirmation :=
  updateWhere (fun r => r.approvalId = approvalId && r.state = .pending)
    (fun r => { r with state := state, resolutionAction := some action, grantId := grantId, resolvedAt := some now }) rows

/-- How a transaction of `resolve_confirmation` that commits ends. -/
inductive Resolution where
  | invalidPreview
  | returned (grantId : Option String)
  deriving DecidableEq

/-- The transaction of `resolve_confirmation`; what it writes of an expired row is rolled back with the error. -/
def resolveInTransaction (s : PolicyStore) (approvalId action : String) (now : String) (grantId : String) :
    Except PolicyError (Resolution × PolicyStore) :=
  match lookup PendingPolicyConfirmation.approvalId approvalId s.confirmations with
  | none => .error (.control "PENDING_CONFIRMATION_NOT_FOUND" "Pending confirmation was not found." none)
  | some pending =>
    match (if action = "allow_once" then hasInvalidPreview previewIsInvalid pending else .ok false) with
    | .error e => .error e
    | .ok true => .ok (.invalidPreview, { s with confirmations := denyPending approvalId now s.confirmations })
    | .ok false =>
      if pending.state ≠ .pending then
        if pending.resolutionAction = some action then .ok (.returned pending.grantId, s)
        else .error (.control "PENDING_CONFIRMATION_ALREADY_RESOLVED" "Pending confirmation was already resolved." none)
      else if pending.expiresAt ≤ now then
        .error (.control "PENDING_CONFIRMATION_EXPIRED" "Pending confirmation expired." none)
      else if action = "allow_once" then
        (insertGrant s grantId (confirmedGrant pending) now).map fun s' => (.returned (some grantId),
          { s' with confirmations := settlePending approvalId .allowed action (some grantId) now s'.confirmations })
      else if action ≠ "deny" then .error (.value "confirmation action must be allow_once|deny")
      else .ok (.returned none,
        { s with confirmations := settlePending approvalId .denied action none now s.confirmations })

/-- `resolve_confirmation`, with the identifier that a grant would get. An invalid preview
denies the row, and the error is raised after the commit. -/
def resolveConfirmation (s : PolicyStore) (approvalId action : String) (now : DateTime) (grantId : String) :
    Except PolicyError (Option String) × PolicyStore :=
  match transaction s (resolveInTransaction previewIsInvalid s approvalId action (toIsoUtc now) grantId) with
  | (.error e, s') => (.error e, s')
  | (.ok .invalidPreview, s') => (.error (previewInvalidError approvalId), s')
  | (.ok (.returned id), s') => (.ok id, s')

/-- The requirements of a descriptor that `resolve_matching_active_grant_for_use` checks first. -/
def descriptorRefuses (tool method subjectId : String) (sessionId : Option String) : Bool :=
  (authorizationDescriptor tool method).any fun d =>
    (d.requiresSession && sessionId.getD "" = "") || d.requiredSubjectId.any fun required => required ≠ subjectId

def selectConfirmedGrant (s : PolicyStore) (subjectId tool method invocationHash : String) (sessionId : Option String)
    (now : String) : Option PolicyGrant :=
  (s.grants.filter fun g => g.subjectId = subjectId && g.effect = .allow && g.tool = tool && g.method = method &&
    g.invocationHash = some invocationHash && (sessionId.all fun id => g.sessionId.getD "" = id) &&
    g.durationType = .once && g.approvalId.isSome && g.revokedAt.isNone && unexpiredAt now g &&
    hasUsesLeft g).argmax fun g => g.createdAt

def approvalOf (s : PolicyStore) (g : PolicyGrant) (subjectId tool method invocationHash : String)
    (sessionId : Option String) : Option PendingPolicyConfirmation :=
  (s.confirmations.find? fun r => some r.approvalId = g.approvalId && r.tool = tool && r.method = method &&
    r.invocationHash = invocationHash).filter fun r => r.state = .allowed && r.subjectId = subjectId &&
    sessionId.all fun id => r.sessionId.getD "" = id

def resolveMatchingActiveGrantForUse (s : PolicyStore) (subjectId tool method invocationHash : String)
    (sessionId : Option String) (now : DateTime) : Except PolicyError (Option PolicyGrant) × PolicyStore :=
  if !isExactConfirmationPair tool method || descriptorRefuses tool method subjectId sessionId then (.ok none, s)
  else
    match selectConfirmedGrant s subjectId tool method invocationHash sessionId (toIsoUtc now) with
    | none => (.ok none, s)
    | some g =>
      match approvalOf s g subjectId tool method invocationHash sessionId with
      | none => (.ok none, s)
      | some row =>
        match hasInvalidPreview previewIsInvalid row with
        | .error e => (.error e, s)
        | .ok true => (.error (previewInvalidError row.approvalId),
            { s with grants := revokeWhere (fun r => r.grantId = g.grantId) (toIsoUtc now) s.grants })
        | .ok false =>
          let (updated, grants) :=
            spendWhere (fun r => r.grantId = g.grantId && r.revokedAt.isNone && hasUsesLeft r) (toIsoUtc now)
              (some (toIsoUtc now)) s.grants
          (.ok (if updated then some g else none), { s with grants := grants })

end Previews

/-- A call that adds no grant leaves the grants, revokes some, or counts a use of one, which
is then the grant that it returns. -/
inductive GrantUpdate (grants : List PolicyGrant) : Option String → List PolicyGrant → Prop where
  | same : GrantUpdate grants none grants
  | revoke (p : PolicyGrant → Bool) (now : String) : GrantUpdate grants none (revokeWhere p now grants)
  | spend {p : PolicyGrant → Bool} {now : String} {revokeAt : Option String} {grantId : String}
      (hp : ∀ r ∈ grants, p r = true → r.grantId = grantId ∧ r.revokedAt = none ∧ hasUsesLeft r = true)
      (honce : ∀ r ∈ grants, p r = true → r.durationType = .once → revokeAt.isSome = true)
      (hrow : ∃ r ∈ grants, p r = true) :
      GrantUpdate grants (some grantId) (updateWhere p (useGrant now revokeAt) grants)

section Grants

variable {s s' : PolicyStore} {grants grants' : List PolicyGrant}

theorem GrantUpdate.uniqueId {used : Option String} (h : GrantUpdate grants used grants')
    (hid : UniqueKey PolicyGrant.grantId grants) : UniqueKey PolicyGrant.grantId grants' := by
  cases h with
  | same => exact hid
  | revoke p now => exact hid.updateWhere fun _ _ => rfl
  | spend hp honce hrow => exact hid.updateWhere fun _ _ => rfl

theorem GrantUpdate.origin {used : Option String} (h : GrantUpdate grants used grants') {r : PolicyGrant}
    (hr : r ∈ grants') : ∃ g ∈ grants, g.toPolicyGrantInput = r.toPolicyGrantInput := by
  cases h with
  | same => exact ⟨r, hr, rfl⟩
  | revoke p now =>
    obtain ⟨g, hg, rfl⟩ := mem_updateWhere.mp hr
    refine ⟨g, hg, ?_⟩
    split <;> rfl
  | spend hp honce hrow =>
    obtain ⟨g, hg, rfl⟩ := mem_updateWhere.mp hr
    refine ⟨g, hg, ?_⟩
    split <;> rfl

theorem mem_of_mem_revokeWhere {p : PolicyGrant → Bool} {now : String} {g : PolicyGrant}
    (hg : g ∈ revokeWhere p now grants) (hlive : g.revokedAt = none) : g ∈ grants := by
  obtain ⟨r, hr, rfl⟩ := mem_updateWhere.mp hg
  split at hlive
  · cases hlive
  · next hp =>
    rw [if_neg hp]
    exact hr

theorem GrantUpdate.kept {used : Option String} (h : GrantUpdate grants used grants') {g : PolicyGrant}
    (hg : g ∈ grants) : ∃ r ∈ grants', r.grantId = g.grantId ∧ r.toPolicyGrantInput = g.toPolicyGrantInput ∧
      (g.revokedAt.isSome = true → r = g) := by
  cases h with
  | same => exact ⟨g, hg, rfl, rfl, fun _ => rfl⟩
  | revoke p now =>
    refine ⟨_, mem_updateWhere.mpr ⟨g, hg, rfl⟩, ?_⟩
    split
    · next hp =>
      refine ⟨rfl, rfl, fun hrevoked => ?_⟩
      rw [Bool.and_eq_true, Option.isNone_iff_eq_none] at hp
      rw [hp.2] at hrevoked
      cases hrevoked
    · exact ⟨rfl, rfl, fun _ => rfl⟩
  | spend hp honce hrow =>
    refine ⟨_, mem_updateWhere.mpr ⟨g, hg, rfl⟩, ?_⟩
    split
    · next hgp =>
      refine ⟨rfl, rfl, fun hrevoked => ?_⟩
      rw [(hp g hg hgp).2.1] at hrevoked
      cases hrevoked
    · exact ⟨rfl, rfl, fun _ => rfl⟩

theorem insertGrant_ok {grantId : String} {input : PolicyGrantInput} {now : String}
    (h : insertGrant s grantId input now = .ok s') :
    (∀ r ∈ s.grants, r.grantId ≠ grantId) ∧
      s' = { s with grants := s.grants ++ [⟨input, grantId, 0, now, now, none⟩] } := by
  rw [insertGrant] at h
  split at h
  · cases h
  · next hfresh =>
    refine ⟨fun r hr hid => hfresh ?_, (Except.ok.inj h).symm⟩
    exact List.any_eq_true.mpr ⟨r, hr, decide_eq_true hid⟩

theorem spendWhere_update (hid : UniqueKey PolicyGrant.grantId grants) (p : PolicyGrant → Bool) (now : String)
    (revokeAt : Option String) (grantId : String)
    (hp : ∀ r ∈ grants, p r = true → r.grantId = grantId ∧ r.revokedAt = none ∧ hasUsesLeft r = true)
    (honce : ∀ r ∈ grants, p r = true → r.durationType = .once → revokeAt.isSome = true) :
    GrantUpdate grants (if (spendWhere p now revokeAt grants).1 then some grantId else none)
      (spendWhere p now revokeAt grants).2 := by
  have hle : (grants.filter p).length ≤ 1 := hid.length_filter_le_one fun r hr hpr => (hp r hr hpr).1
  by_cases hone : (grants.filter p).length = 1
  · obtain ⟨r, hr⟩ := List.length_eq_one_iff.mp hone
    have hmem : r ∈ grants.filter p := by simp [hr]
    rw [List.mem_filter] at hmem
    simp only [spendWhere, hone, decide_true, if_true]
    exact .spend hp honce ⟨r, hmem⟩
  · have hnil : grants.filter p = [] := List.length_eq_zero_iff.mp (by omega)
    rw [List.filter_eq_nil_iff] at hnil
    have hsame : updateWhere p (useGrant now revokeAt) grants = grants :=
      updateWhere_eq_self _ fun r hr => by simpa using hnil r hr
    simp only [spendWhere, hone, decide_false, Bool.false_eq_true, if_false, hsame]
    exact .same

theorem isUsable_iff {grantId now : String} {g : PolicyGrant} :
    isUsable grantId now g = true ↔
      g.grantId = grantId ∧ g.revokedAt = none ∧ unexpiredAt now g = true ∧ hasUsesLeft g = true := by
  simp [isUsable, and_assoc]

/-- The revocation time of a use depends only on the count of uses, and a `once` grant always gets one. -/
theorem isSome_revokeAtUse {now : String} {g : PolicyGrant} (h : g.durationType = .once) :
    (revokeAtUse now g).isSome = true := by
  simp [revokeAtUse, h]

/-- The update that both unconditional calls share: it may use a grant that was read earlier,
as long as that is a grant of the table. -/
theorem spendUsable_update (hid : UniqueKey PolicyGrant.grantId grants) {read : PolicyGrant}
    (hread : ∃ g ∈ grants, g.grantId = read.grantId ∧ g.toPolicyGrantInput = read.toPolicyGrantInput) (now : String) :
    GrantUpdate grants
      (if (spendWhere (isUsable read.grantId now) now (revokeAtUse now read) grants).1 then some read.grantId else none)
      (spendWhere (isUsable read.grantId now) now (revokeAtUse now read) grants).2 := by
  obtain ⟨g, hg, hgid, hinput⟩ := hread
  refine spendWhere_update hid _ now _ _ ?_ ?_
  · intro r _ hr
    obtain ⟨hrid, hlive, -, huses⟩ := isUsable_iff.mp hr
    exact ⟨hrid, hlive, huses⟩
  · intro r hr hrow honce
    obtain ⟨hrid, -⟩ := isUsable_iff.mp hrow
    have hsame : r = g := hid.eq_of_key_eq hr hg (hrid.trans hgid.symm)
    apply isSome_revokeAtUse
    rw [← congrArg PolicyGrantInput.durationType hinput, ← hsame]
    exact honce

private theorem grantId_getGrant_spendWhere {grantId : String} {g : PolicyGrant} (hg : getGrant s grantId = some g)
    (p : PolicyGrant → Bool) (now : String) (revokeAt : Option String) :
    (getGrant { s with grants := (spendWhere p now revokeAt s.grants).2 } grantId).map PolicyGrant.grantId =
      some g.grantId := by
  have hkeep : ∀ r, p r = true → (useGrant now revokeAt r).grantId = r.grantId := fun _ _ => rfl
  rw [getGrant] at hg
  rw [getGrant, spendWhere, lookup_updateWhere hkeep, hg, Option.map_some, Option.map_some]
  split <;> rfl

theorem consumeGrantUse_update (hid : UniqueKey PolicyGrant.grantId s.grants) (grantId : String) (now : DateTime) :
    GrantUpdate s.grants ((consumeGrantUse s grantId now).1.map PolicyGrant.grantId)
      (consumeGrantUse s grantId now).2.grants := by
  rw [consumeGrantUse]
  cases hg : getGrant s grantId with
  | none => exact .same
  | some g =>
    obtain ⟨hmem, rfl⟩ := lookup_some hg
    dsimp only
    split
    · exact .same
    · have hupdate := spendUsable_update hid ⟨g, hmem, rfl, rfl⟩ (toIsoUtc now)
      refine (congrArg (GrantUpdate s.grants · _) ?_).mp hupdate
      split
      · exact (grantId_getGrant_spendWhere hg _ _ _).symm
      · rfl

theorem consumeGrantUse_store (s : PolicyStore) (grantId : String) (now : DateTime) :
    (consumeGrantUse s grantId now).2 = { s with grants := (consumeGrantUse s grantId now).2.grants } := by
  rw [consumeGrantUse]
  cases getGrant s grantId with
  | none => rfl
  | some g =>
    dsimp only
    split <;> rfl

theorem spendActiveGrant_update (hid : UniqueKey PolicyGrant.grantId s.grants) {read : PolicyGrant}
    (hread : ∃ g ∈ s.grants, g.grantId = read.grantId ∧ g.toPolicyGrantInput = read.toPolicyGrantInput)
    (now : DateTime) :
    GrantUpdate s.grants ((spendActiveGrant s read now).1.map PolicyGrant.grantId)
      (spendActiveGrant s read now).2.grants := by
  have hupdate := spendUsable_update hid hread (toIsoUtc now)
  refine (congrArg (GrantUpdate s.grants · _) ?_).mp hupdate
  rw [spendActiveGrant]
  dsimp only
  split <;> rfl

def usedGrantId : Except PolicyError (Option PolicyGrant) → Option String
  | .ok (some g) => some g.grantId
  | _ => none

private theorem selectConfirmedGrant_some {subjectId tool method invocationHash : String} {sessionId : Option String}
    {now : String} {g : PolicyGrant}
    (h : selectConfirmedGrant s subjectId tool method invocationHash sessionId now = some g) :
    g ∈ s.grants ∧ g.durationType = .once ∧ g.revokedAt = none ∧ unexpiredAt now g = true := by
  have hmem := List.argmax_mem (Option.mem_def.mpr h)
  rw [List.mem_filter] at hmem
  simp only [Bool.and_eq_true, decide_eq_true_eq, Option.isNone_iff_eq_none] at hmem
  obtain ⟨hg, ⟨⟨⟨⟨-, honce⟩, -⟩, hlive⟩, hunexpired⟩, -⟩ := hmem
  exact ⟨hg, honce, hlive, hunexpired⟩

private theorem approvalOf_some {g : PolicyGrant} {subjectId tool method invocationHash : String}
    {sessionId : Option String} {row : PendingPolicyConfirmation}
    (h : approvalOf s g subjectId tool method invocationHash sessionId = some row) :
    ∃ row ∈ s.confirmations, g.approvalId = some row.approvalId ∧ row.state = .allowed ∧ row.tool = tool ∧
      row.method = method ∧ row.invocationHash = invocationHash := by
  rw [approvalOf, Option.filter_eq_some_iff] at h
  obtain ⟨hfind, hcond⟩ := h
  have hkey := List.find?_some hfind
  simp only [Bool.and_eq_true, decide_eq_true_eq] at hkey hcond
  obtain ⟨⟨⟨hid, htool⟩, hmethod⟩, hhash⟩ := hkey
  exact ⟨row, List.mem_of_find?_eq_some hfind, hid.symm, hcond.1.1, htool, hmethod, hhash⟩

theorem resolveMatching_update (hid : UniqueKey PolicyGrant.grantId s.grants)
    (previewIsInvalid : Dict → Except PolicyError Bool) (subjectId tool method invocationHash : String)
    (sessionId : Option String) (now : DateTime) :
    GrantUpdate s.grants
      (usedGrantId (resolveMatchingActiveGrantForUse previewIsInvalid s subjectId tool method invocationHash
        sessionId now).1)
      (resolveMatchingActiveGrantForUse previewIsInvalid s subjectId tool method invocationHash
        sessionId now).2.grants := by
  rw [resolveMatchingActiveGrantForUse]
  split
  · exact .same
  cases selectConfirmedGrant s subjectId tool method invocationHash sessionId (toIsoUtc now) with
  | none => exact .same
  | some g =>
    dsimp only
    cases approvalOf s g subjectId tool method invocationHash sessionId with
    | none => exact .same
    | some row =>
      dsimp only
      rcases hasInvalidPreview previewIsInvalid row with e | invalid
      · exact .same
      · cases invalid with
        | true => exact .revoke _ _
        | false =>
          have hupdate := spendWhere_update hid
            (fun r => r.grantId = g.grantId && r.revokedAt.isNone && hasUsesLeft r) (toIsoUtc now)
            (some (toIsoUtc now)) g.grantId (fun r _ hr => by simpa [and_assoc] using hr) (fun _ _ _ _ => rfl)
          refine (congrArg (GrantUpdate s.grants · _) ?_).mp hupdate
          dsimp only
          split <;> rfl

theorem resolveMatching_store (previewIsInvalid : Dict → Except PolicyError Bool) (s : PolicyStore)
    (subjectId tool method invocationHash : String) (sessionId : Option String) (now : DateTime) :
    (resolveMatchingActiveGrantForUse previewIsInvalid s subjectId tool method invocationHash sessionId now).2 =
      { s with grants := (resolveMatchingActiveGrantForUse previewIsInvalid s subjectId tool method invocationHash
        sessionId now).2.grants } := by
  rw [resolveMatchingActiveGrantForUse]
  split
  · rfl
  cases selectConfirmedGrant s subjectId tool method invocationHash sessionId (toIsoUtc now) with
  | none => rfl
  | some g =>
    dsimp only
    cases approvalOf s g subjectId tool method invocationHash sessionId with
    | none => rfl
    | some row =>
      dsimp only
      rcases hasInvalidPreview previewIsInvalid row with e | invalid
      · rfl
      · cases invalid <;> rfl

/-- The grant that `resolve_matching_active_grant_for_use` returns, and the allowed row that
it carries. -/
theorem resolveMatching_some {previewIsInvalid : Dict → Except PolicyError Bool}
    {subjectId tool method invocationHash : String} {sessionId : Option String} {now : DateTime} {g : PolicyGrant}
    (h : (resolveMatchingActiveGrantForUse previewIsInvalid s subjectId tool method invocationHash sessionId now).1 =
      .ok (some g)) :
    (g ∈ s.grants ∧ g.durationType = .once ∧ g.revokedAt = none ∧ unexpiredAt (toIsoUtc now) g = true) ∧
      ∃ row ∈ s.confirmations, g.approvalId = some row.approvalId ∧ row.state = .allowed ∧ row.tool = tool ∧
        row.method = method ∧ row.invocationHash = invocationHash := by
  rw [resolveMatchingActiveGrantForUse] at h
  split at h
  · cases h
  cases hselect : selectConfirmedGrant s subjectId tool method invocationHash sessionId (toIsoUtc now) with
  | none =>
    rw [hselect] at h
    cases h
  | some selected =>
    rw [hselect] at h
    dsimp only at h
    cases hrow : approvalOf s selected subjectId tool method invocationHash sessionId with
    | none =>
      rw [hrow] at h
      cases h
    | some row =>
      rw [hrow] at h
      dsimp only at h
      have hg : selected = g := by
        rcases hpreview : hasInvalidPreview previewIsInvalid row with e | invalid
        · rw [hpreview] at h
          cases h
        · rw [hpreview] at h
          cases invalid with
          | true => cases h
          | false =>
            dsimp only at h
            split at h
            · exact Option.some.inj (Except.ok.inj h)
            · cases h
      subst hg
      exact ⟨selectConfirmedGrant_some hselect, approvalOf_some hrow⟩

theorem mem_of_selectActiveGrant {grantId subjectId tool method : String} {requiredTarget : Option Dict}
    {now : DateTime} {g : PolicyGrant}
    (h : selectActiveGrant s grantId subjectId tool method requiredTarget now = some g) : g ∈ s.grants := by
  rw [selectActiveGrant] at h
  split at h
  · cases h
  · next r hr =>
    split at h
    · cases h
      exact List.mem_of_find?_eq_some hr
    · cases h

end Grants

section Confirmations

variable (previewIsInvalid : Dict → Except PolicyError Bool) (s : PolicyStore)

/-- How `resolve_confirmation` ends, and with which store. -/
inductive Resolves (approvalId action : String) (now : String) (grantId : String) :
    Except PolicyError (Option String) → PolicyStore → Prop where
  | failed (e : PolicyError) : Resolves approvalId action now grantId (.error e) s
  | repeated {row : PendingPolicyConfirmation}
      (hrow : lookup PendingPolicyConfirmation.approvalId approvalId s.confirmations = some row)
      (hstate : row.state ≠ .pending) (haction : row.resolutionAction = some action) :
      Resolves approvalId action now grantId (.ok row.grantId) s
  | invalid {row : PendingPolicyConfirmation}
      (hrow : lookup PendingPolicyConfirmation.approvalId approvalId s.confirmations = some row)
      (haction : action = "allow_once") (hinvalid : hasInvalidPreview previewIsInvalid row = .ok true) :
      Resolves approvalId action now grantId (.error (previewInvalidError approvalId))
        { s with confirmations := denyPending approvalId now s.confirmations }
  | allowed {row : PendingPolicyConfirmation}
      (hrow : lookup PendingPolicyConfirmation.approvalId approvalId s.confirmations = some row)
      (hstate : row.state = .pending) (haction : action = "allow_once")
      (hvalid : hasInvalidPreview previewIsInvalid row = .ok false) (hfresh : ∀ r ∈ s.grants, r.grantId ≠ grantId) :
      Resolves approvalId action now grantId (.ok (some grantId))
        { s with
          grants := s.grants ++ [⟨confirmedGrant row, grantId, 0, now, now, none⟩]
          confirmations := settlePending approvalId .allowed action (some grantId) now s.confirmations }
  | denied {row : PendingPolicyConfirmation}
      (hrow : lookup PendingPolicyConfirmation.approvalId approvalId s.confirmations = some row)
      (hstate : row.state = .pending) (haction : action = "deny") :
      Resolves approvalId action now grantId (.ok none)
        { s with confirmations := settlePending approvalId .denied action none now s.confirmations }

/-- How `get_or_create_pending_confirmation` ends, and with which store. -/
inductive Requests (request : ConfirmationRequest) (now : String) (approvalId : String) :
    Except PolicyError PendingPolicyConfirmation → PolicyStore → Prop where
  | failed (e : PolicyError) : Requests request now approvalId (.error e) s
  | found {row : PendingPolicyConfirmation} (hrow : findPending s request now = some row) :
      Requests request now approvalId (.ok row) s
  | created (expiresAt : String) (hfresh : ∀ r ∈ s.confirmations, r.approvalId ≠ approvalId) :
      Requests request now approvalId (.ok (pendingRow approvalId request now expiresAt))
        { s with confirmations := s.confirmations ++ [pendingRow approvalId request now expiresAt] }
  | replaced {row : PendingPolicyConfirmation} (expiresAt : String) (hrow : findPending s request now = some row)
      (hinvalid : hasInvalidPreview previewIsInvalid row = .ok true)
      (hfresh : ∀ r ∈ denyPending row.approvalId now s.confirmations, r.approvalId ≠ approvalId) :
      Requests request now approvalId (.ok (pendingRow approvalId request now expiresAt))
        { s with confirmations :=
          denyPending row.approvalId now s.confirmations ++ [pendingRow approvalId request now expiresAt] }

variable {s}

theorem resolveConfirmation_resolves (approvalId action : String) (now : DateTime) (grantId : String) :
    Resolves previewIsInvalid s approvalId action (toIsoUtc now) grantId
      (resolveConfirmation previewIsInvalid s approvalId action now grantId).1
      (resolveConfirmation previewIsInvalid s approvalId action now grantId).2 := by
  rw [resolveConfirmation, resolveInTransaction]
  cases hrow : lookup PendingPolicyConfirmation.approvalId approvalId s.confirmations with
  | none => exact .failed _
  | some row =>
    dsimp only
    rcases hpreview : (if action = "allow_once" then hasInvalidPreview previewIsInvalid row else .ok false) with
      e | invalid
    · exact .failed e
    cases invalid with
    | true =>
      split at hpreview
      · next haction => exact .invalid hrow haction hpreview
      · cases hpreview
    | false =>
      dsimp only
      by_cases hstate : row.state = .pending
      · rw [if_neg (not_not.mpr hstate)]
        by_cases hexpired : row.expiresAt ≤ toIsoUtc now
        · rw [if_pos hexpired]
          exact .failed _
        rw [if_neg hexpired]
        by_cases haction : action = "allow_once"
        · rw [if_pos haction] at hpreview ⊢
          cases hinsert : insertGrant s grantId (confirmedGrant row) (toIsoUtc now) with
          | error e => exact .failed e
          | ok s' =>
            obtain ⟨hfresh, rfl⟩ := insertGrant_ok hinsert
            exact .allowed hrow hstate haction hpreview hfresh
        · rw [if_neg haction]
          by_cases hdeny : action = "deny"
          · rw [if_neg (not_not.mpr hdeny)]
            exact .denied hrow hstate hdeny
          · rw [if_pos hdeny]
            exact .failed _
      · rw [if_pos hstate]
        by_cases haction : row.resolutionAction = some action
        · rw [if_pos haction]
          exact .repeated hrow hstate haction
        · rw [if_neg haction]
          exact .failed _

theorem getOrCreate_requests (request : ConfirmationRequest) (now ttlFrom : DateTime) (approvalId : String) :
    Requests previewIsInvalid s request (toIsoUtc now) approvalId
      (getOrCreatePendingConfirmation previewIsInvalid s request now ttlFrom approvalId).1
      (getOrCreatePendingConfirmation previewIsInvalid s request now ttlFrom approvalId).2 := by
  have hfresh : ∀ rows : List PendingPolicyConfirmation,
      ¬(rows.any fun r => r.approvalId = approvalId) = true → ∀ r ∈ rows, r.approvalId ≠ approvalId := by
    intro rows hany r hr hid
    exact hany (List.any_eq_true.mpr ⟨r, hr, decide_eq_true hid⟩)
  rw [getOrCreatePendingConfirmation]
  split
  · exact .failed _
  · next expiresAt _ =>
    cases hrow : findPending s request (toIsoUtc now) with
    | none =>
      dsimp only
      rw [insertPending]
      split
      · exact .failed _
      · next hany => exact .created (toIsoUtc expiresAt) (hfresh _ hany)
    | some row =>
      dsimp only
      rcases hpreview : hasInvalidPreview previewIsInvalid row with e | invalid
      · exact .failed e
      cases invalid with
      | false => exact .found hrow
      | true =>
        dsimp only
        rw [insertPending]
        split
        · exact .failed _
        · next hany => exact .replaced (toIsoUtc expiresAt) hrow hpreview (hfresh _ hany)

end Confirmations

end OpenMinion.PolicyTables
