import OpenMinion.PolicyConfirmations
import OpenMinion.PolicyDecisions
import OpenMinion.PolicyGrantUses

/-!
# Exact authorization

An action of an authorization pair is allowed only by the grant of its own confirmed invocation, unless `create_grant`
added a wildcard grant with an approval id that belongs to no such confirmation.
-/
namespace OpenMinion.PolicyAuthorization
open IsoTimestamps JsonValues KeyedTables PolicyTables PolicyDecisions PolicyConfirmations PolicyGrantUses
open TransitionRuns

/-- The calls of the service that change the store. Each may come from a service with its own
configuration and risks. -/
inductive PolicyCall where
  | createGrant (grant : PolicyGrantInput) (now : DateTime) (grantId : String)
  | createGrantFromConfirmation (ctl : PolicyCtl) (request : ConfirmedGrantRequest)
  | resolveConfirmation (approvalId action : String) (now : DateTime) (grantId : String)
  | revokeGrant (grantId : String) (now : DateTime)
  | setMode (mode : PolicyMode)
  | check (ctl : PolicyCtl) (request : CheckRequest)

def policyStep (rt : PolicyRuntime) (s : PolicyStore) : PolicyCall → PolicyStore
  | .createGrant grant now grantId => (ctlCreateGrant rt s grant now grantId).2
  | .createGrantFromConfirmation ctl request => (createGrantFromConfirmation rt ctl s request).2
  | .resolveConfirmation approvalId action now grantId =>
    (resolveConfirmation rt.previewIsInvalid s approvalId action now grantId).2
  | .revokeGrant grantId now => (revokeGrant s grantId now).2
  | .setMode mode => { s with mode := some mode }
  | .check ctl request => (check rt ctl s request).2

/-- Whether a check ended with `ALLOW`. -/
def isAllowed : Except PolicyError PolicyDecision → Bool
  | .ok decision => decision.decision = .allow
  | .error _ => false

/-- An allowed confirmation of an invocation, and an unused `once` grant of it that is
neither revoked nor expired. -/
def ExactlyApproved (s : PolicyStore) (now : DateTime) (inv : InvocationSummary) : Prop :=
  ∃ row ∈ s.confirmations, row.state = .allowed ∧ row.tool = inv.tool ∧ row.method = inv.method ∧
    row.invocationHash = inv.invocationHash ∧
    ∃ g ∈ s.grants, g.approvalId = some row.approvalId ∧ g.durationType = .once ∧ g.revokedAt = none ∧
      unexpiredAt (toIsoUtc now) g = true ∧ g.usesCount = 0

def selectedAt (clock : CheckClock) (inv : InvocationSummary) : DateTime :=
  if isExactOpsCommand inv.tool inv.method then clock.useAt else clock.listAt

def covers (grant : PolicyGrantInput) (tool method : String) : Bool :=
  (grant.tool = "*" || grant.tool = tool) && (grant.method = "*" || grant.method = method)

theorem covers_iff {grant : PolicyGrantInput} {tool method : String} :
    covers grant tool method = true ↔
      (grant.tool = "*" ∨ grant.tool = tool) ∧ (grant.method = "*" ∨ grant.method = method) := by
  simp [covers]

/-- A confirmation with the approval id of a grant was allowed for this tool and method and
the hash of the grant. -/
def isBackedFor (rows : List PendingPolicyConfirmation) (grant : PolicyGrantInput) (tool method : String) : Bool :=
  rows.any fun row => grant.approvalId = some row.approvalId && row.state = .allowed && row.tool = tool &&
    row.method = method && grant.invocationHash = some row.invocationHash

def carriesApproval (grant : PolicyGrantInput) : Bool :=
  grant.effect = .allow && grant.durationType = .once && isTruthy grant.approvalId

/-- The grant is one that `create_grant` accepts, and it carries an approval id that backs it
for some authorization pair less than its pattern covers. -/
def isUnbacked (s : PolicyStore) (grant : PolicyGrantInput) : Bool :=
  !isPolicyAuthorizationPair grant.tool grant.method && isTruthy grant.invocationHash && carriesApproval grant &&
    policyAuthorizationPairs.any fun pair =>
      covers grant pair.1 pair.2 && !isBackedFor s.confirmations grant pair.1 pair.2

def createsBacked (s : PolicyStore) : PolicyCall → Prop
  | .createGrant grant _ _ => isUnbacked s grant = false
  | _ => True

instance (s : PolicyStore) : ∀ call, Decidable (createsBacked s call)
  | .createGrant grant _ _ => inferInstanceAs (Decidable (isUnbacked s grant = false))
  | .createGrantFromConfirmation _ _ => isTrue trivial
  | .resolveConfirmation _ _ _ _ => isTrue trivial
  | .revokeGrant _ _ => isTrue trivial
  | .setMode _ => isTrue trivial
  | .check _ _ => isTrue trivial

/-- A one-time allow with an approval id is backed for every authorization pair that its
pattern covers, and names an invocation. -/
def GrantBacked (rows : List PendingPolicyConfirmation) (grant : PolicyGrantInput) : Prop :=
  carriesApproval grant = true → isTruthy grant.invocationHash = true ∧
    ∀ pair ∈ policyAuthorizationPairs, covers grant pair.1 pair.2 = true →
      isBackedFor rows grant pair.1 pair.2 = true

/-- A row that a check creates: of an exact pair, with a digest as its hash. -/
def ExactRow (row : PendingPolicyConfirmation) : Prop :=
  isExactConfirmationPair row.tool row.method = true ∧ row.invocationHash ≠ ""

structure Backed (s : PolicyStore) : Prop where
  uniqueId : UniqueKey PolicyGrant.grantId s.grants
  limits : ∀ g ∈ s.grants, WithinLimits g
  grants : ∀ g ∈ s.grants, GrantBacked s.confirmations g.toPolicyGrantInput
  rows : ∀ row ∈ s.confirmations, ExactRow row

variable {rt : PolicyRuntime} {s s' : PolicyStore}

theorem RowsStep.isBackedFor {rows rows' : List PendingPolicyConfirmation} (h : RowsStep rows rows')
    {grant : PolicyGrantInput} {tool method : String} (hbacked : isBackedFor rows grant tool method = true) :
    isBackedFor rows' grant tool method = true := by
  obtain ⟨row, hrow, hcond⟩ := List.any_eq_true.mp hbacked
  have hallowed : row.state = .allowed := by
    simp only [Bool.and_eq_true, decide_eq_true_eq] at hcond
    exact hcond.1.1.1.2
  obtain ⟨r, hr, -, hsame⟩ := h.kept hrow
  have hresolved : row.state ≠ .pending := by
    rw [hallowed]
    decide
  rw [hsame hresolved] at hr
  exact List.any_eq_true.mpr ⟨row, hr, hcond⟩

theorem GrantBacked.step {rows rows' : List PendingPolicyConfirmation} (h : RowsStep rows rows')
    {grant : PolicyGrantInput} (hbacked : GrantBacked rows grant) : GrantBacked rows' grant := by
  intro hcarries
  obtain ⟨hhash, hpairs⟩ := hbacked hcarries
  exact ⟨hhash, fun pair hpair hcovers => RowsStep.isBackedFor h (hpairs pair hpair hcovers)⟩

theorem Backed.update (h : Backed s) {used : Option String} {grants : List PolicyGrant}
    (hupdate : GrantUpdate s.grants used grants) : Backed { s with grants := grants } := by
  refine ⟨hupdate.uniqueId h.uniqueId, GrantUpdate.limits hupdate h.limits, ?_, h.rows⟩
  intro r hr
  obtain ⟨g, hg, hinput⟩ := hupdate.origin hr
  rw [← hinput]
  exact h.grants g hg

theorem Backed.insert (h : Backed s) {grant : PolicyGrantInput} {grantId : String} (now : String)
    (hfresh : ∀ r ∈ s.grants, r.grantId ≠ grantId) (hbacked : GrantBacked s.confirmations grant) :
    Backed { s with grants := s.grants ++ [⟨grant, grantId, 0, now, now, none⟩] } := by
  refine ⟨h.uniqueId.append_singleton hfresh, ?_, ?_, h.rows⟩
  · intro g hg
    rcases List.mem_append.mp hg with hg | hg
    · exact h.limits g hg
    · obtain rfl := List.mem_singleton.mp hg
      exact .of_unused rfl
  · intro g hg
    rcases List.mem_append.mp hg with hg | hg
    · exact h.grants g hg
    · obtain rfl := List.mem_singleton.mp hg
      exact hbacked

theorem Backed.confirmations (h : Backed s) {rows : List PendingPolicyConfirmation}
    (hstep : RowsStep s.confirmations rows) (hrows : ∀ row ∈ rows, ExactRow row) :
    Backed { s with confirmations := rows } :=
  ⟨h.uniqueId, h.limits, fun g hg => (h.grants g hg).step hstep, hrows⟩

private theorem exactRows_updateWhere {rows : List PendingPolicyConfirmation} (h : ∀ row ∈ rows, ExactRow row)
    {p : PendingPolicyConfirmation → Bool} {f : PendingPolicyConfirmation → PendingPolicyConfirmation}
    (hf : ∀ r, ExactRow r → ExactRow (f r)) : ∀ row ∈ updateWhere p f rows, ExactRow row := by
  intro row hrow
  obtain ⟨r, hr, rfl⟩ := mem_updateWhere.mp hrow
  split
  · exact hf r (h r hr)
  · exact h r hr

theorem ne_wildcard {tool method : String} (h : isExactConfirmationPair tool method = true) :
    tool ≠ "*" ∧ method ≠ "*" := by
  simp only [isExactConfirmationPair, isPolicyAuthorizationPair, policyAuthorizationPairs,
    policyAuthorizationDescriptors, isExactOpsCommand, List.map_cons, List.map_nil, List.mem_cons, List.not_mem_nil,
    or_false, Prod.mk.injEq, Bool.or_eq_true, decide_eq_true_eq] at h
  rcases h with (⟨rfl, rfl⟩ | ⟨rfl, rfl⟩ | ⟨rfl, rfl⟩ | ⟨rfl, rfl⟩) | ⟨rfl, rfl⟩ <;> decide

theorem grantBacked_confirmedGrant {rows : List PendingPolicyConfirmation} {row allowed : PendingPolicyConfirmation}
    (hexact : ExactRow row) (hmem : allowed ∈ rows) (hid : allowed.approvalId = row.approvalId)
    (hstate : allowed.state = .allowed) (htool : allowed.tool = row.tool) (hmethod : allowed.method = row.method)
    (hhash : allowed.invocationHash = row.invocationHash) : GrantBacked rows (confirmedGrant row) := by
  intro _
  obtain ⟨htool', hmethod'⟩ := ne_wildcard hexact.1
  refine ⟨by simpa [confirmedGrant, isTruthy] using hexact.2, fun pair _ hcovers => ?_⟩
  have hpair : row.tool = pair.1 ∧ row.method = pair.2 := by
    obtain ⟨htools, hmethods⟩ := covers_iff.mp hcovers
    exact ⟨htools.resolve_left htool', hmethods.resolve_left hmethod'⟩
  refine List.any_eq_true.mpr ⟨allowed, hmem, ?_⟩
  simp [confirmedGrant, hid, hstate, htool, hmethod, hhash, hpair.1, hpair.2]

theorem Backed.resolves (h : Backed s) {approvalId action now grantId : String}
    {result : Except PolicyError (Option String)}
    (hstep : Resolves rt.previewIsInvalid s approvalId action now grantId result s') : Backed s' := by
  have hrows := resolves_rowsStep hstep
  cases hstep with
  | failed e => exact h
  | repeated hrow hstate haction => exact h
  | invalid hrow haction hinvalid => exact h.confirmations hrows (exactRows_updateWhere h.rows fun _ hr => hr)
  | @allowed row hrow hstate haction hvalid hfresh =>
    obtain ⟨hmem, hid⟩ := lookup_some hrow
    have hsettled := h.confirmations hrows (exactRows_updateWhere h.rows fun _ hr => hr)
    have hallowed : { row with
        state := .allowed, resolutionAction := some action, grantId := some grantId, resolvedAt := some now } ∈
        settlePending approvalId .allowed action (some grantId) now s.confirmations :=
      mem_updateWhere.mpr ⟨row, hmem, by simp [hid, hstate]⟩
    exact hsettled.insert now hfresh (grantBacked_confirmedGrant (h.rows row hmem) hallowed rfl rfl rfl rfl rfl)
  | denied hrow hstate haction => exact h.confirmations hrows (exactRows_updateWhere h.rows fun _ hr => hr)

theorem Backed.requests (h : Backed s) {request : ConfirmationRequest} {now approvalId : String}
    {result : Except PolicyError PendingPolicyConfirmation}
    (hexact : isExactConfirmationPair request.tool request.method = true) (hhash : request.invocationHash ≠ "")
    (hstep : Requests rt.previewIsInvalid s request now approvalId result s') : Backed s' := by
  have hrows := requests_rowsStep hstep
  have happend : ∀ {rows : List PendingPolicyConfirmation}, (∀ row ∈ rows, ExactRow row) → ∀ expiresAt,
      ∀ row ∈ rows ++ [pendingRow approvalId request now expiresAt], ExactRow row := by
    intro rows hold expiresAt row hrow
    rcases List.mem_append.mp hrow with hrow | hrow
    · exact hold row hrow
    · obtain rfl := List.mem_singleton.mp hrow
      exact ⟨hexact, hhash⟩
  cases hstep with
  | failed e => exact h
  | found hrow => exact h
  | created expiresAt hfresh => exact h.confirmations hrows (happend h.rows expiresAt)
  | @replaced row expiresAt hrow hinvalid hfresh =>
    have hdenied : ∀ r ∈ denyPending row.approvalId now s.confirmations, ExactRow r :=
      exactRows_updateWhere h.rows fun _ hr => hr
    exact h.confirmations hrows (happend hdenied expiresAt)

/-- What `validate_grant_input` accepts: only the expiry may be rewritten, and a one-time
grant names an invocation. -/
theorem validateGrantInput_ok {grant accepted : PolicyGrantInput} (h : validateGrantInput rt grant = .ok accepted) :
    (∃ expiresAt, accepted = { grant with expiresAt := expiresAt }) ∧
      (grant.durationType = .once → isTruthy grant.invocationHash = true) := by
  rw [validateGrantInput] at h
  split at h
  · cases h
  split at h
  · cases h
  split at h
  · cases h
  next hhash =>
  refine ⟨?_, fun honce => by simpa [honce] using hhash⟩
  split at h
  · split at h
    · cases h
    · split at h
      · cases h
      · cases h
      · cases h
      · exact ⟨_, (Except.ok.inj h).symm⟩
  · exact ⟨grant.expiresAt, (Except.ok.inj h).symm⟩

private theorem grantBacked_expiresAt {rows : List PendingPolicyConfirmation} {grant : PolicyGrantInput}
    (expiresAt : Option String) (h : GrantBacked rows grant) : GrantBacked rows { grant with expiresAt := expiresAt } := h

private theorem Backed.createGrant (h : Backed s) {grant : PolicyGrantInput} (grantId : String) (now : DateTime)
    (hbacked : GrantBacked s.confirmations grant) : Backed (createGrant s grantId grant now).2 := by
  rw [PolicyTables.createGrant]
  cases hinsert : insertGrant s grantId grant (toIsoUtc now) with
  | error e => exact h
  | ok s' =>
    obtain ⟨hfresh, rfl⟩ := insertGrant_ok hinsert
    exact h.insert _ hfresh hbacked

theorem Backed.ctlCreateGrant (h : Backed s) {grant : PolicyGrantInput} (now : DateTime) (grantId : String)
    (hbacked : isUnbacked s grant = false) : Backed (ctlCreateGrant rt s grant now grantId).2 := by
  rw [PolicyDecisions.ctlCreateGrant]
  split
  · exact h
  next hpair =>
  cases hvalid : validateGrantInput rt grant with
  | error e => exact h
  | ok accepted =>
    obtain ⟨⟨expiresAt, rfl⟩, hhash⟩ := validateGrantInput_ok hvalid
    refine h.createGrant grantId now (grantBacked_expiresAt expiresAt fun hcarries => ?_)
    have honce : grant.durationType = .once := by
      simp only [carriesApproval, Bool.and_eq_true, decide_eq_true_eq] at hcarries
      exact hcarries.1.2
    refine ⟨hhash honce, fun pair hmem hcovers => ?_⟩
    by_contra hnot
    have hunbacked : isUnbacked s grant = true := by
      simp only [isUnbacked, Bool.and_eq_true, Bool.not_eq_true', List.any_eq_true]
      exact ⟨⟨⟨by simpa using hpair, hhash honce⟩, hcarries⟩, pair, hmem, hcovers, by simpa using hnot⟩
    rw [hbacked] at hunbacked
    cases hunbacked

private theorem isUnbacked_of_no_approval {grant : PolicyGrantInput} (h : grant.approvalId = none) :
    isUnbacked s grant = false := by
  simp [isUnbacked, carriesApproval, isTruthy, h]

theorem Backed.createGrantFromConfirmation (h : Backed s) (ctl : PolicyCtl) (request : ConfirmedGrantRequest) :
    Backed (createGrantFromConfirmation rt ctl s request).2 := by
  rw [PolicyDecisions.createGrantFromConfirmation]
  cases normalizeInvocation rt request.invocation with
  | error e => exact h
  | ok inv =>
    dsimp only
    split
    · exact h
    cases defaultTargetScope rt inv with
    | error e => exact h
    | ok scope =>
      dsimp only
      split
      · exact h
      · split
        · exact h
        · exact h.ctlCreateGrant _ _ (isUnbacked_of_no_approval rfl)

theorem normalizeInvocation_hash {invocation : Invocation} {inv : InvocationSummary}
    (h : normalizeInvocation rt invocation = .ok inv) : inv.invocationHash ≠ "" := by
  have hdigest : ∀ digest : Digest, digest.text ≠ "" := by
    intro digest htext
    have hlength := digest.length_text
    rw [htext] at hlength
    cases hlength
  rw [normalizeInvocation] at h
  split at h
  split at h
  · cases h
  split at h
  · cases h
  split at h
  · obtain rfl := Except.ok.inj h
    exact hdigest _
  · cases h

section Check

variable (rt) (ctl : PolicyCtl) {inv : InvocationSummary} (hhash : inv.invocationHash ≠ "") (ctx : ContextSummary)
  (risk : RiskSpec) (confirmationPreview : Option Dict) (clock : CheckClock) (approvalId : String)

theorem Backed.cleanupExpired (h : Backed s) (now : DateTime) : Backed (cleanupExpired s now) :=
  h.update (.revoke _ _)

theorem Backed.matchingGrantDecision (h : Backed s) (candidates : List GrantMatch) (inv : InvocationSummary)
    (risk : RiskSpec) (consumeGrants : Bool) (useAt : DateTime) :
    Backed (matchingGrantDecision rt s candidates inv risk consumeGrants useAt).2 := by
  rw [PolicyDecisions.matchingGrantDecision]
  cases selectGrantMatch (relevantMatches rt candidates inv risk) with
  | none => exact h
  | some selected =>
    dsimp only
    split
    · exact h
    split
    · exact h
    split
    · rw [consumeGrantUse_store]
      exact h.update (consumeGrantUse_update h.uniqueId _ _)
    · exact h

include hhash

theorem Backed.confirmDecision (h : Backed s) (reasonCode reason : String) :
    Backed (confirmDecision rt ctl s inv ctx risk reasonCode reason confirmationPreview clock approvalId).2 := by
  rw [PolicyDecisions.confirmDecision]
  cases defaultTargetScope rt inv with
  | error e => exact h
  | ok scope =>
    dsimp only
    split
    · next hexact =>
      rw [getOrCreateExactConfirmation]
      cases exactPreview rt inv confirmationPreview with
      | error e => exact h
      | ok preview => exact h.requests hexact hhash (getOrCreate_requests rt.previewIsInvalid _ _ _ _)
    · exact h

theorem Backed.resolveExactAuthorizationDecision (h : Backed s) (subjectId : String) :
    Backed (resolveExactAuthorizationDecision rt ctl s inv ctx subjectId risk confirmationPreview clock
      approvalId).2 := by
  rw [PolicyDecisions.resolveExactAuthorizationDecision]
  split
  · exact h.confirmDecision rt ctl hhash ctx risk confirmationPreview clock approvalId _ _
  split
  · exact h
  have hused : Backed (resolveExactOpsDecision rt s inv ctx subjectId risk clock.useAt).2 := by
    rw [resolveExactOpsDecision]
    dsimp only
    rw [resolveMatching_store]
    exact h.update (resolveMatching_update h.uniqueId _ _ _ _ _ _ _)
  rcases hdecision : resolveExactOpsDecision rt s inv ctx subjectId risk clock.useAt with ⟨result, s'⟩
  rw [hdecision] at hused
  rcases result with e | decision
  · exact hused
  · cases decision with
    | none => exact hused.confirmDecision rt ctl hhash ctx risk confirmationPreview clock approvalId _ _
    | some decision => exact hused

theorem Backed.configuredRuleDecision (h : Backed s) (rule : Option PolicyRule) :
    Backed (configuredRuleDecision rt ctl s rule inv ctx risk confirmationPreview clock approvalId).2 := by
  cases rule with
  | none => exact h
  | some rule =>
    rw [PolicyDecisions.configuredRuleDecision]
    dsimp only
    cases rule.mode with
    | auto => exact h
    | ask => exact h.confirmDecision rt ctl hhash ctx risk confirmationPreview clock approvalId _ _
    | block => exact h

theorem Backed.defaultDecision (h : Backed s) (rule : Option PolicyRule) (mode : PolicyMode) (config : PolicyConfig) :
    Backed (defaultDecision rt ctl s rule inv ctx risk mode config confirmationPreview clock approvalId).2 := by
  have hrule := h.configuredRuleDecision rt ctl hhash ctx risk confirmationPreview clock approvalId rule
  rw [PolicyDecisions.defaultDecision]
  rcases hdecision : PolicyDecisions.configuredRuleDecision rt ctl s rule inv ctx risk confirmationPreview clock
    approvalId with ⟨result, s'⟩
  rw [hdecision] at hrule
  rcases result with e | decision
  · exact hrule
  · cases decision with
    | some decision => exact hrule
    | none =>
      dsimp only
      split
      · exact hrule
      split
      · exact hrule
      split
      · exact hrule.confirmDecision rt ctl hhash ctx risk confirmationPreview clock approvalId _ _
      · exact hrule

theorem Backed.evaluateEnforced (h : Backed s) (consumeGrants : Bool) (mode : PolicyMode) (config : PolicyConfig) :
    Backed (evaluateEnforced rt ctl s inv ctx risk consumeGrants mode config confirmationPreview clock
      approvalId).2 := by
  have hclean := h.cleanupExpired clock.cleanupAt
  rw [PolicyDecisions.evaluateEnforced]
  split
  · exact hclean
  split
  · exact hclean
  next candidates _ =>
  have hmatched := hclean.matchingGrantDecision rt candidates inv risk consumeGrants clock.useAt
  rcases hdecision : PolicyDecisions.matchingGrantDecision rt (PolicyTables.cleanupExpired s clock.cleanupAt) candidates
    inv risk consumeGrants clock.useAt with ⟨result, s₁⟩
  rw [hdecision] at hmatched
  cases result with
  | some decision => exact hmatched
  | none =>
    dsimp only
    have hexact := hmatched.resolveExactAuthorizationDecision rt ctl hhash ctx risk confirmationPreview clock
      approvalId (subjectOr ctx config.subjectIdDefault)
    dsimp only at hexact
    rcases hdecision : PolicyDecisions.resolveExactAuthorizationDecision rt ctl s₁ inv ctx
      (subjectOr ctx config.subjectIdDefault) risk confirmationPreview clock approvalId with ⟨result, s₂⟩
    rw [hdecision] at hexact
    rcases result with e | decision
    · exact hexact
    · cases decision with
      | some decision => exact hexact
      | none => exact hexact.defaultDecision rt ctl hhash ctx risk confirmationPreview clock approvalId _ mode config

end Check

theorem Backed.check (h : Backed s) (ctl : PolicyCtl) (request : CheckRequest) :
    Backed (check rt ctl s request).2 := by
  rw [PolicyDecisions.check]
  cases hinv : normalizeInvocation rt request.invocation with
  | error e => exact h
  | ok inv =>
    dsimp only
    split
    · exact h
    · exact h.evaluateEnforced rt ctl (normalizeInvocation_hash hinv) _ _ _ _ _ _ _ _

theorem Backed.step (h : Backed s) (call : PolicyCall) (hcall : createsBacked s call) :
    Backed (policyStep rt s call) := by
  cases call with
  | createGrant grant now grantId => exact h.ctlCreateGrant now grantId hcall
  | createGrantFromConfirmation ctl request => exact h.createGrantFromConfirmation ctl request
  | resolveConfirmation approvalId action now grantId =>
    exact h.resolves (resolveConfirmation_resolves rt.previewIsInvalid approvalId action now grantId)
  | revokeGrant grantId now => exact h.update (.revoke _ _)
  | setMode mode => exact ⟨h.uniqueId, h.limits, h.grants, h.rows⟩
  | check ctl request => exact h.check ctl request

theorem requiresOnceDuration_of_pair {tool method : String} (h : isPolicyAuthorizationPair tool method = true)
    (riskFloor : Option RiskClass) : requiresOnceDuration rt tool method riskFloor = true := by
  have hname : ∀ name : String, PythonText.strip name = name → name.toList.all (fun c => c.toNat < 128) = true →
      String.ofList (name.toList.map Char.toLower) = name → rt.lower (PythonText.strip name) = name := by
    intro name hstrip hascii hlower
    have hchars : ∀ c ∈ name.toList, c.toNat < 128 := fun c hc => of_decide_eq_true (List.all_eq_true.mp hascii c hc)
    rw [hstrip, rt.lower_ascii name hchars, hlower]
  have hnames : rt.lower (PythonText.strip tool) = tool ∧ rt.lower (PythonText.strip method) = method := by
    simp only [isPolicyAuthorizationPair, policyAuthorizationPairs, policyAuthorizationDescriptors, List.map_cons,
      List.map_nil, List.mem_cons, List.not_mem_nil, or_false, Prod.mk.injEq, decide_eq_true_eq] at h
    rcases h with ⟨rfl, rfl⟩ | ⟨rfl, rfl⟩ | ⟨rfl, rfl⟩ | ⟨rfl, rfl⟩ <;>
      exact ⟨hname _ (by decide) (by decide) (by decide), hname _ (by decide) (by decide) (by decide)⟩
  simp [requiresOnceDuration, hnames.1, hnames.2, h]

theorem mem_of_selectGrantMatch {candidates : List GrantMatch} {m : GrantMatch}
    (h : selectGrantMatch candidates = some m) : m ∈ candidates := by
  rw [selectGrantMatch] at h
  split at h
  · cases h
  · have hmem := List.argmax_mem (Option.mem_def.mpr h)
    split at hmem
    · exact (List.mem_filter.mp hmem).1
    · exact (List.mem_filter.mp (List.mem_filter.mp hmem).1).1

theorem grantMatches_true {g : PolicyGrant} {inv : InvocationSummary} {ctx : ContextSummary} {risk : RiskSpec}
    {facts : TargetFacts} {now : DateTime} (h : grantMatches rt g inv ctx risk facts now = .ok true) :
    covers g.toPolicyGrantInput inv.tool inv.method = true ∧
      (isTruthy g.invocationHash = true → g.invocationHash = some inv.invocationHash) := by
  rw [grantMatches] at h
  split at h
  · cases h
  split at h
  · cases h
  split at h
  · cases h
  split at h
  · cases h
  split at h
  · cases h
  split at h
  · cases h
  next hhash =>
  split at h
  · cases h
  next htool =>
  split at h
  · cases h
  next hmethod =>
  constructor
  · rw [covers_iff]
    simp only [Bool.and_eq_true, decide_eq_true_eq, not_and_or, not_not] at htool hmethod
    exact ⟨htool, hmethod⟩
  · intro htruthy
    by_contra hne
    exact hhash (by simp [htruthy, hne])

theorem findMatchingGrants_mem {grants : List PolicyGrant} {inv : InvocationSummary} {ctx : ContextSummary}
    {risk : RiskSpec} {matchAt : PolicyGrant → DateTime} {candidates : List GrantMatch}
    (h : findMatchingGrants rt grants inv ctx risk matchAt = .ok candidates) :
    ∀ m ∈ candidates, m.grant ∈ grants ∧ ∃ facts, grantMatches rt m.grant inv ctx risk facts (matchAt m.grant) =
      .ok true := by
  rw [findMatchingGrants] at h
  cases hfacts : targetFacts rt inv.args with
  | error e =>
    rw [hfacts] at h
    cases h
  | ok facts =>
    rw [hfacts] at h
    refine foldlM_invariant (J := fun matched => ∀ m ∈ matched, m.grant ∈ grants ∧
      ∃ facts, grantMatches rt m.grant inv ctx risk facts (matchAt m.grant) = .ok true) ?_ (by simp) h
    intro matched g hg matched' hmatched hbody m hm
    cases hmatch : grantMatches rt g inv ctx risk facts (matchAt g) with
    | error e =>
      rw [hmatch] at hbody
      cases hbody
    | ok isMatch =>
      rw [hmatch] at hbody
      obtain rfl := Except.ok.inj hbody
      cases isMatch with
      | false => exact hmatched m hm
      | true =>
        rcases List.mem_append.mp hm with hm | hm
        · exact hmatched m hm
        · obtain rfl := List.mem_singleton.mp hm
          exact ⟨hg, facts, hmatch⟩

theorem mem_listActiveGrants {subjectId : String} {now : DateTime} {g : PolicyGrant}
    (h : g ∈ listActiveGrants s subjectId now) :
    g ∈ s.grants ∧ g.revokedAt = none ∧ unexpiredAt (toIsoUtc now) g = true := by
  rw [listActiveGrants, List.mem_insertionSort, List.mem_filter] at h
  simp only [Bool.and_eq_true, Option.isNone_iff_eq_none] at h
  exact ⟨h.1, h.2.1.2, h.2.2⟩

theorem matchingGrantDecision_allow {candidates : List GrantMatch} {inv : InvocationSummary} {risk : RiskSpec}
    {consumeGrants : Bool} {useAt : DateTime} {decision : PolicyDecision}
    (hexact : isExactConfirmationPair inv.tool inv.method = true)
    (h : (matchingGrantDecision rt s candidates inv risk consumeGrants useAt).1 = some decision)
    (hallow : decision.decision = .allow) :
    isPolicyAuthorizationPair inv.tool inv.method = true ∧
      ∃ m ∈ candidates, carriesApproval m.grant.toPolicyGrantInput = true := by
  rw [matchingGrantDecision] at h
  cases hselect : selectGrantMatch (relevantMatches rt candidates inv risk) with
  | none =>
    rw [hselect] at h
    cases h
  | some selected =>
    rw [hselect] at h
    dsimp only at h
    split at h
    · obtain rfl := Option.some.inj h
      cases hallow
    next hdeny =>
    split at h
    · cases h
    next hops =>
    have hpair : isPolicyAuthorizationPair inv.tool inv.method = true := by
      simpa [isExactConfirmationPair, hops] using hexact
    have hmem := mem_of_selectGrantMatch hselect
    simp only [relevantMatches, requiresOnceDuration_of_pair hpair, hpair, if_true, List.mem_filter, Bool.or_eq_true,
      decide_eq_true_eq] at hmem
    obtain ⟨⟨hcandidate, honce⟩, happroval⟩ := hmem
    have heffect : selected.grant.effect = .allow := by
      cases heff : selected.grant.effect with
      | allow => rfl
      | deny => exact absurd heff hdeny
    refine ⟨hpair, selected, hcandidate, ?_⟩
    simp [carriesApproval, heffect, honce.resolve_left hdeny, happroval]

theorem confirmDecision_not_allowed (rt : PolicyRuntime) (ctl : PolicyCtl) (s : PolicyStore) (inv : InvocationSummary)
    (ctx : ContextSummary) (risk : RiskSpec) (reasonCode reason : String) (confirmationPreview : Option Dict)
    (clock : CheckClock) (approvalId : String) :
    isAllowed (confirmDecision rt ctl s inv ctx risk reasonCode reason confirmationPreview clock approvalId).1 =
      false := by
  rw [confirmDecision]
  cases defaultTargetScope rt inv with
  | error e => rfl
  | ok scope =>
    dsimp only
    split
    · generalize (getOrCreateExactConfirmation rt s inv ctx _ confirmationPreview clock approvalId).1 = row
      cases row <;> rfl
    · rfl

section Exact

variable {ctl : PolicyCtl} {inv : InvocationSummary} {ctx : ContextSummary} {risk : RiskSpec}
  {confirmationPreview : Option Dict} {clock : CheckClock} {approvalId : String}

/-- A confirmation that `resolve_exact_authorization_decision` asks for is no `ALLOW`. -/
private theorem confirm_ne_allow {reason : String} {decision : Option PolicyDecision}
    (h : (confirmDecision rt ctl s inv ctx risk "EXACT_AUTHORIZATION_REQUIRED" reason confirmationPreview clock
      approvalId).1.map some = .ok decision) : ∃ d, decision = some d ∧ d.decision ≠ .allow := by
  have hnot := confirmDecision_not_allowed rt ctl s inv ctx risk "EXACT_AUTHORIZATION_REQUIRED" reason
    confirmationPreview clock approvalId
  rcases hresult : (confirmDecision rt ctl s inv ctx risk "EXACT_AUTHORIZATION_REQUIRED" reason confirmationPreview
    clock approvalId).1 with e | d
  · rw [hresult] at h
    cases h
  · rw [hresult] at h hnot
    exact ⟨d, (Except.ok.inj h).symm, by simpa [isAllowed] using hnot⟩

/-- The decision on an exact pair: a confirmation, or the use of a confirmed grant of an
operations command. -/
theorem resolveExactAuthorizationDecision_exact {subjectId : String} {decision : Option PolicyDecision}
    (hexact : isExactConfirmationPair inv.tool inv.method = true)
    (h : (resolveExactAuthorizationDecision rt ctl s inv ctx subjectId risk confirmationPreview clock
      approvalId).1 = .ok decision) :
    ∃ d, decision = some d ∧ (d.decision = .allow → isExactOpsCommand inv.tool inv.method = true ∧
      ∃ g, (resolveMatchingActiveGrantForUse rt.previewIsInvalid s subjectId inv.tool inv.method inv.invocationHash
        ctx.sessionId clock.useAt).1 = .ok (some g)) := by
  rw [resolveExactAuthorizationDecision] at h
  split at h
  · obtain ⟨d, hd, hne⟩ := confirm_ne_allow h
    exact ⟨d, hd, fun hallow => absurd hallow hne⟩
  next hpair =>
  have hops : isExactOpsCommand inv.tool inv.method = true := by
    simpa [isExactConfirmationPair, hpair] using hexact
  rw [if_neg (by simp [hops]), resolveExactOpsDecision] at h
  rcases hresult : resolveMatchingActiveGrantForUse rt.previewIsInvalid s subjectId inv.tool inv.method
    inv.invocationHash ctx.sessionId clock.useAt with ⟨result, s'⟩
  rw [hresult] at h
  rcases result with e | used
  · cases h
  · cases used with
    | some g =>
      obtain rfl := Except.ok.inj h
      exact ⟨_, rfl, fun _ => ⟨hops, g, rfl⟩⟩
    | none =>
      obtain ⟨d, hd, hne⟩ := confirm_ne_allow h
      exact ⟨d, hd, fun hallow => absurd hallow hne⟩

theorem Backed.exactlyApproved (h : Backed s) {g : PolicyGrant} (hg : g ∈ s.grants) (hlive : g.revokedAt = none)
    {now : DateTime} (hunexpired : unexpiredAt (toIsoUtc now) g = true)
    (hcarries : carriesApproval g.toPolicyGrantInput = true)
    (hpair : isPolicyAuthorizationPair inv.tool inv.method = true)
    (hcovers : covers g.toPolicyGrantInput inv.tool inv.method = true)
    (hhash : isTruthy g.invocationHash = true → g.invocationHash = some inv.invocationHash) :
    ExactlyApproved s now inv := by
  obtain ⟨htruthy, hpairs⟩ := h.grants g hg hcarries
  have hbacked := hpairs (inv.tool, inv.method) (of_decide_eq_true hpair) hcovers
  obtain ⟨row, hrow, hcond⟩ := List.any_eq_true.mp hbacked
  simp only [Bool.and_eq_true, decide_eq_true_eq] at hcond
  obtain ⟨⟨⟨⟨hid, hstate⟩, htool⟩, hmethod⟩, hrowHash⟩ := hcond
  have honce : g.durationType = .once := by
    simp only [carriesApproval, Bool.and_eq_true, decide_eq_true_eq] at hcarries
    exact hcarries.1.2
  refine ⟨row, hrow, hstate, htool, hmethod, ?_, g, hg, hid, honce, hlive, hunexpired, ?_⟩
  · exact Option.some.inj (hrowHash.symm.trans (hhash htruthy))
  · exact (h.limits g hg).once_unused honce hlive

theorem exactlyApproved_of_cleanup (cleanupAt : DateTime) {now : DateTime}
    (h : ExactlyApproved (cleanupExpired s cleanupAt) now inv) :
    ExactlyApproved s now inv := by
  obtain ⟨row, hrow, hstate, htool, hmethod, hhash, g, hg, hid, honce, hlive, hunexpired, hunused⟩ := h
  exact ⟨row, hrow, hstate, htool, hmethod, hhash, g, mem_of_mem_revokeWhere hg hlive, hid, honce, hlive, hunexpired,
    hunused⟩

theorem blockedRuleDecision_deny {rule : Option PolicyRule} {decision : PolicyDecision}
    (h : blockedRuleDecision rule risk = some decision) : decision.decision = .deny := by
  cases rule with
  | none => cases h
  | some rule =>
    rw [blockedRuleDecision] at h
    split at h
    · cases h
    · obtain rfl := Option.some.inj h
      rfl

theorem not_ops_of_pair {tool method : String} (h : isPolicyAuthorizationPair tool method = true) :
    isExactOpsCommand tool method = false := by
  simp only [isPolicyAuthorizationPair, policyAuthorizationPairs, policyAuthorizationDescriptors, List.map_cons,
    List.map_nil, List.mem_cons, List.not_mem_nil, or_false, Prod.mk.injEq, decide_eq_true_eq] at h
  rcases h with ⟨rfl, rfl⟩ | ⟨rfl, rfl⟩ | ⟨rfl, rfl⟩ | ⟨rfl, rfl⟩ <;> decide

theorem matchingGrantDecision_store (rt : PolicyRuntime) (s : PolicyStore) (candidates : List GrantMatch)
    (risk : RiskSpec) (consumeGrants : Bool) (useAt : DateTime)
    (hexact : isExactConfirmationPair inv.tool inv.method = true) :
    (matchingGrantDecision rt s candidates inv risk consumeGrants useAt).2 = s := by
  rw [matchingGrantDecision]
  cases selectGrantMatch (relevantMatches rt candidates inv risk) with
  | none => rfl
  | some selected =>
    dsimp only
    split
    · rfl
    split
    · rfl
    next hops =>
    have hpair : isPolicyAuthorizationPair inv.tool inv.method = true := by
      simpa [isExactConfirmationPair, hops] using hexact
    simp [hpair]

theorem Backed.evaluateEnforced_allow (h : Backed s) (hexact : isExactConfirmationPair inv.tool inv.method = true)
    {consumeGrants : Bool} {mode : PolicyMode} {config : PolicyConfig}
    (hallow : isAllowed (PolicyDecisions.evaluateEnforced rt ctl s inv ctx risk consumeGrants mode config
      confirmationPreview clock approvalId).1 = true) : ExactlyApproved s (selectedAt clock inv) inv := by
  have hclean := h.cleanupExpired clock.cleanupAt
  refine exactlyApproved_of_cleanup clock.cleanupAt ?_
  rw [PolicyDecisions.evaluateEnforced] at hallow
  split at hallow
  · next decision hblocked =>
    have hdeny := blockedRuleDecision_deny hblocked
    simp [isAllowed, hdeny] at hallow
  split at hallow
  · cases hallow
  next candidates hcandidates =>
  rcases hmatching : PolicyDecisions.matchingGrantDecision rt (PolicyTables.cleanupExpired s clock.cleanupAt)
    candidates inv risk consumeGrants clock.useAt with ⟨result, s₁⟩
  rw [hmatching] at hallow
  cases result with
  | some decision =>
    obtain ⟨hpair, m, hm, hcarries⟩ := matchingGrantDecision_allow hexact (congrArg Prod.fst hmatching)
      (of_decide_eq_true hallow)
    obtain ⟨hlisted, facts, hmatches⟩ := findMatchingGrants_mem hcandidates m hm
    obtain ⟨hg, hlive, hunexpired⟩ := mem_listActiveGrants hlisted
    obtain ⟨hcovers, hhash⟩ := grantMatches_true hmatches
    have hops : isExactOpsCommand inv.tool inv.method = false := not_ops_of_pair hpair
    rw [selectedAt, hops]
    exact hclean.exactlyApproved hg hlive hunexpired hcarries hpair hcovers hhash
  | none =>
    have hsame := matchingGrantDecision_store rt (PolicyTables.cleanupExpired s clock.cleanupAt) candidates risk
      consumeGrants clock.useAt hexact
    rw [hmatching] at hsame
    dsimp only at hsame hallow
    subst hsame
    rcases hresult : PolicyDecisions.resolveExactAuthorizationDecision rt ctl
      (PolicyTables.cleanupExpired s clock.cleanupAt) inv ctx (subjectOr ctx config.subjectIdDefault) risk
      confirmationPreview clock approvalId with ⟨result, s₂⟩
    rw [hresult] at hallow
    rcases result with e | decision
    · cases hallow
    obtain ⟨d, rfl, hused⟩ := resolveExactAuthorizationDecision_exact hexact (congrArg Prod.fst hresult)
    obtain ⟨hops, g, hg⟩ := hused (of_decide_eq_true hallow)
    obtain ⟨⟨hmem, honce, hlive, hunexpired⟩, row, hrow, hid, hstate, htool, hmethod, hhash⟩ := resolveMatching_some hg
    rw [selectedAt, hops]
    exact ⟨row, hrow, hstate, htool, hmethod, hhash, g, hmem, hid, honce, hlive, hunexpired,
      (hclean.limits g hmem).once_unused honce hlive⟩

end Exact

section Preflight

variable {inv : InvocationSummary} {ctx : ContextSummary} {risk : RiskSpec} {mode : PolicyMode}
  {confirmationPreview : Option Dict} {previewError : Option String}

private theorem previewPreflight_deny {decision : PolicyDecision}
    (h : previewPreflight inv ctx risk confirmationPreview previewError = some decision) :
    decision.decision = .deny := by
  rw [previewPreflight] at h
  split at h
  · split at h
    · obtain rfl := Option.some.inj h
      rfl
    · cases h
  · split at h
    · cases h
    · split at h
      · obtain rfl := Option.some.inj h
        rfl
      · split at h
        · obtain rfl := Option.some.inj h
          rfl
        · cases h

theorem authorizationPreflightDecision_deny {decision : PolicyDecision}
    (h : authorizationPreflightDecision inv ctx risk mode confirmationPreview previewError = some decision) :
    decision.decision = .deny := by
  rw [authorizationPreflightDecision] at h
  split at h
  · next hpreview =>
    obtain rfl := Option.some.inj h
    exact previewPreflight_deny hpreview
  · split at h
    · obtain rfl := Option.some.inj h
      rfl
    · cases h

theorem authorizationPreflightDecision_none (hexact : isExactConfirmationPair inv.tool inv.method = true)
    (h : authorizationPreflightDecision inv ctx risk mode confirmationPreview previewError = none) :
    mode ≠ .logOnly := by
  rw [authorizationPreflightDecision] at h
  split at h
  · cases h
  · intro hmode
    simp [hexact, hmode] at h

end Preflight

private theorem isAllowed_map {mode : PolicyMode} (hmode : mode ≠ .logOnly) {risk : RiskSpec}
    {result : Except PolicyError PolicyDecision} :
    isAllowed (result.map fun decision => if mode = .logOnly then logOnlyDecision risk decision else decision) =
      isAllowed result := by
  cases result with
  | error e => rfl
  | ok decision => simp [Except.map, hmode]

theorem Backed.check_allow (h : Backed s) {ctl : PolicyCtl} {request : CheckRequest} {inv : InvocationSummary}
    (hinv : normalizeInvocation rt request.invocation = .ok inv)
    (hexact : isExactConfirmationPair inv.tool inv.method = true)
    (hallow : isAllowed (PolicyDecisions.check rt ctl s request).1 = true) :
    ExactlyApproved s (selectedAt request.clock inv) inv := by
  rw [PolicyDecisions.check, hinv] at hallow
  dsimp only at hallow
  split at hallow
  · next decision hpreflight =>
    have hdeny := authorizationPreflightDecision_deny hpreflight
    simp [isAllowed, hdeny] at hallow
  next hpreflight =>
  have hmode := authorizationPreflightDecision_none hexact hpreflight
  dsimp only at hallow
  rw [isAllowed_map hmode] at hallow
  exact h.evaluateEnforced_allow hexact hallow

theorem backed_empty : Backed {} := by
  refine ⟨.nil, ?_, ?_, ?_⟩ <;> exact fun _ h => (nomatch h)

/-- In every run whose grants are backed, a check that allows an action of an exact pair finds an allowed confirmation
of this very invocation and its unused one-time grant, neither revoked nor expired. -/
theorem exact_authorization_when_backed (rt : PolicyRuntime) {calls : List PolicyCall}
    (hcalls : Guarded (policyStep rt) createsBacked {} calls) (ctl : PolicyCtl) (request : CheckRequest)
    {inv : InvocationSummary} (hinv : normalizeInvocation rt request.invocation = .ok inv)
    (hexact : isExactConfirmationPair inv.tool inv.method = true)
    (hallow : isAllowed (PolicyDecisions.check rt ctl (run (policyStep rt) {} calls) request).1 = true) :
    ExactlyApproved (run (policyStep rt) {} calls) (selectedAt request.clock inv) inv := by
  have hbacked : Backed (run (policyStep rt) {} calls) :=
    hcalls.invariant (fun _ call h hcall => h.step call hcall) backed_empty
  exact hbacked.check_allow hinv hexact hallow

section Orders

/-- SHA-256 of the JSON text of `commerce.place_order` without arguments. -/
def orderHash : String := "a908e17d03e13071a9dc236fc81c6228f6b19ade71ffcb365608b692aeea23c6"

def orderRuntime : PolicyRuntime where
  str value := match value with
    | .str text => text
    | _ => ""
  lower text := String.ofList (text.toList.map Char.toLower)
  lower_ascii _ _ := rfl
  invocationDigest _ _ _ := ⟨orderHash, by decide⟩
  search _ _ := .ok false
  fnmatch name pattern := name == pattern
  hostname _ := .ok none
  expandUser path := .ok path
  fromIsoFormat _ := .invalid
  previewIsInvalid _ := .ok false

def orderTime : DateTime := ⟨0, zero_lt_endOfTime⟩

def orderCheck : CheckRequest where
  invocation := { tool := "commerce", method := "place_order" }
  ctx := { sessionId := some "session", subjectId := some "local" }
  confirmationPreview := some []
  clock := ⟨orderTime, orderTime, fun _ => orderTime, orderTime, orderTime, orderTime⟩
  approvalId := "approval"

def orderInvocation : InvocationSummary where
  invocationId := "invocation-local"
  tool := "commerce"
  method := "place_order"
  args := []
  invocationHash := orderHash

def confirmedOrder : List PolicyCall :=
  [.check {} orderCheck, .resolveConfirmation "approval" "allow_once" orderTime "grant"]

theorem exact_authorization_confirmedOrder :
    isAllowed (check orderRuntime {} (run (policyStep orderRuntime) {} confirmedOrder) orderCheck).1 = true ∧
      ExactlyApproved (run (policyStep orderRuntime) {} confirmedOrder) orderTime orderInvocation := by
  have hallow : isAllowed (check orderRuntime {} (run (policyStep orderRuntime) {} confirmedOrder) orderCheck).1 =
      true := by decide +kernel
  have hcalls : Guarded (policyStep orderRuntime) createsBacked {} confirmedOrder := by decide +kernel
  have hinv : normalizeInvocation orderRuntime orderCheck.invocation = .ok orderInvocation := rfl
  have hexact : isExactConfirmationPair orderInvocation.tool orderInvocation.method = true := by decide +kernel
  exact ⟨hallow, exact_authorization_when_backed orderRuntime hcalls {} orderCheck hinv hexact hallow⟩

def wildcardGrant : List PolicyCall :=
  [.createGrant { effect := .allow, durationType := .once, invocationHash := some orderHash,
                  approvalId := some "no-such-approval" } orderTime "grant"]

/-- A wildcard grant allows an order that nobody confirmed: there is no confirmation at all. -/
theorem exact_authorization_bypassed :
    normalizeInvocation orderRuntime orderCheck.invocation = .ok orderInvocation ∧
      isExactConfirmationPair orderInvocation.tool orderInvocation.method = true ∧
      isAllowed (check orderRuntime {} (run (policyStep orderRuntime) {} wildcardGrant) orderCheck).1 = true ∧
      ¬ExactlyApproved (run (policyStep orderRuntime) {} wildcardGrant) orderTime orderInvocation := by
  refine ⟨rfl, by decide +kernel, by decide +kernel, ?_⟩
  have hnone : (run (policyStep orderRuntime) {} wildcardGrant).confirmations = [] := by decide +kernel
  rintro ⟨row, hrow, -⟩
  rw [hnone] at hrow
  cases hrow

end Orders

end OpenMinion.PolicyAuthorization
