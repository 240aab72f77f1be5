import OpenMinion.PolicyTables
import OpenMinion.TransitionRuns

/-!
# The life of a pending confirmation

Clients ask for confirmations and resolve them, each call in one transaction. A row leaves `pending` at most once, and
it is allowed exactly when one grant carries its approval id.
-/
namespace OpenMinion.PolicyConfirmations
open IsoTimestamps JsonValues KeyedTables PolicyTables TransitionRuns

inductive ConfirmationCall where
  | getOrCreatePendingConfirmation (request : ConfirmationRequest) (now ttlFrom : DateTime) (approvalId : String)
  | resolveConfirmation (approvalId action : String) (now : DateTime) (grantId : String)

section Calls

variable (previewIsInvalid : Dict → Except PolicyError Bool)

def confirmationStep (s : PolicyStore) : ConfirmationCall → PolicyStore
  | .getOrCreatePendingConfirmation request now ttlFrom approvalId =>
    (getOrCreatePendingConfirmation previewIsInvalid s request now ttlFrom approvalId).2
  | .resolveConfirmation approvalId action now grantId =>
    (resolveConfirmation previewIsInvalid s approvalId action now grantId).2

def isPending (s : PolicyStore) (approvalId : String) : Bool :=
  s.confirmations.any fun r => r.approvalId = approvalId && r.state = .pending

/-- How often the row with an approval id leaves `pending` in a run. -/
def departures (approvalId : String) : PolicyStore → List ConfirmationCall → ℕ
  | _, [] => 0
  | s, a :: as =>
    (if isPending s approvalId && !isPending (confirmationStep previewIsInvalid s a) approvalId then 1 else 0) +
      departures approvalId (confirmationStep previewIsInvalid s a) as

def grantsOf (grants : List PolicyGrant) (approvalId : String) : List PolicyGrant :=
  grants.filter fun g => g.approvalId = some approvalId

/-- What holds of a row and of the grants that carry its approval id. -/
def RowSettled (grants : List PolicyGrant) (row : PendingPolicyConfirmation) : Prop :=
  match row.state with
  | .pending => row.grantId = none ∧ grantsOf grants row.approvalId = []
  | .allowed => row.resolutionAction = some "allow_once" ∧ hasInvalidPreview previewIsInvalid row = .ok false ∧
      ∃ g, grantsOf grants row.approvalId = [g] ∧ row.grantId = some g.grantId
  | .denied => row.resolutionAction = some "deny" ∧ row.grantId = none ∧ grantsOf grants row.approvalId = []
  | .expired => False

structure Settled (s : PolicyStore) : Prop where
  uniqueId : UniqueKey PendingPolicyConfirmation.approvalId s.confirmations
  rows : ∀ row ∈ s.confirmations, RowSettled previewIsInvalid s.grants row
  approved : ∀ g ∈ s.grants, ∃ row ∈ s.confirmations, g.approvalId = some row.approvalId

end Calls

variable {previewIsInvalid : Dict → Except PolicyError Bool} {s s' : PolicyStore}

private theorem mem_resolved {approvalId : String} {f : PendingPolicyConfirmation → PendingPolicyConfirmation}
    {rows : List PendingPolicyConfirmation} {row : PendingPolicyConfirmation}
    (h : row ∈ updateWhere (fun r => r.approvalId = approvalId && r.state = .pending) f rows) :
    (∃ r ∈ rows, r.approvalId = approvalId ∧ r.state = .pending ∧ row = f r) ∨
      row ∈ rows ∧ (row.approvalId ≠ approvalId ∨ row.state ≠ .pending) := by
  obtain ⟨r, hr, rfl⟩ := mem_updateWhere.mp h
  split
  · next hcond =>
    rw [Bool.and_eq_true, decide_eq_true_eq, decide_eq_true_eq] at hcond
    exact .inl ⟨r, hr, hcond.1, hcond.2, rfl⟩
  · next hcond =>
    refine .inr ⟨hr, ?_⟩
    rw [Bool.and_eq_true, decide_eq_true_eq, decide_eq_true_eq, not_and_or] at hcond
    exact hcond

/-- What `RowSettled` says of a pending row. -/
private theorem rowSettled_pending {grants : List PolicyGrant} {row : PendingPolicyConfirmation}
    (hstate : row.state = .pending) :
    RowSettled previewIsInvalid grants row ↔ row.grantId = none ∧ grantsOf grants row.approvalId = [] := by
  rw [RowSettled, hstate]

private theorem rowSettled_denied {grants : List PolicyGrant} {row : PendingPolicyConfirmation}
    (hstate : row.state = .denied) :
    RowSettled previewIsInvalid grants row ↔ row.resolutionAction = some "deny" ∧ row.grantId = none ∧
      grantsOf grants row.approvalId = [] := by
  rw [RowSettled, hstate]

private theorem RowSettled.congr {grants grants' : List PolicyGrant} {row : PendingPolicyConfirmation}
    (h : RowSettled previewIsInvalid grants row)
    (hgrants : grantsOf grants' row.approvalId = grantsOf grants row.approvalId) :
    RowSettled previewIsInvalid grants' row := by
  rw [RowSettled, hgrants]
  exact h

private theorem approved_resolved {rows : List PendingPolicyConfirmation} {g : PolicyGrant} {approvalId : String}
    {f : PendingPolicyConfirmation → PendingPolicyConfirmation} (hf : ∀ r, (f r).approvalId = r.approvalId)
    (h : ∃ row ∈ rows, g.approvalId = some row.approvalId) :
    ∃ row ∈ updateWhere (fun r => r.approvalId = approvalId && r.state = .pending) f rows,
      g.approvalId = some row.approvalId := by
  obtain ⟨row, hrow, hg⟩ := h
  refine ⟨_, mem_updateWhere.mpr ⟨row, hrow, rfl⟩, ?_⟩
  split
  · rw [hf, hg]
  · exact hg

theorem Settled.deny (h : Settled previewIsInvalid s) {approvalId : String}
    {f : PendingPolicyConfirmation → PendingPolicyConfirmation} (hid : ∀ r, (f r).approvalId = r.approvalId)
    (hf : ∀ r, r.grantId = none →
      (f r).state = .denied ∧ (f r).resolutionAction = some "deny" ∧ (f r).grantId = none) :
    Settled previewIsInvalid { s with
      confirmations := updateWhere (fun r => r.approvalId = approvalId && r.state = .pending) f s.confirmations } := by
  refine ⟨h.uniqueId.updateWhere fun r _ => hid r, ?_, fun g hg => approved_resolved hid (h.approved g hg)⟩
  intro row hrow
  rcases mem_resolved hrow with ⟨r, hr, -, hstate, rfl⟩ | ⟨hrow, -⟩
  · obtain ⟨hgrant, hnone⟩ := (rowSettled_pending hstate).mp (h.rows r hr)
    obtain ⟨hdenied, haction, hgrantId⟩ := hf r hgrant
    rw [rowSettled_denied hdenied, hid]
    exact ⟨haction, hgrantId, hnone⟩
  · exact h.rows row hrow

theorem Settled.insert (h : Settled previewIsInvalid s) {row : PendingPolicyConfirmation} (hstate : row.state = .pending)
    (hgrant : row.grantId = none) (hfresh : ∀ r ∈ s.confirmations, r.approvalId ≠ row.approvalId) :
    Settled previewIsInvalid { s with confirmations := s.confirmations ++ [row] } := by
  have hnone : grantsOf s.grants row.approvalId = [] := by
    rw [grantsOf, List.filter_eq_nil_iff]
    intro g hg
    obtain ⟨r, hr, hgr⟩ := h.approved g hg
    simpa [hgr] using hfresh r hr
  refine ⟨h.uniqueId.append_singleton hfresh, ?_, ?_⟩
  · intro r hr
    rcases List.mem_append.mp hr with hr | hr
    · exact h.rows r hr
    · obtain rfl := List.mem_singleton.mp hr
      exact (rowSettled_pending hstate).mpr ⟨hgrant, hnone⟩
  · intro g hg
    obtain ⟨r, hr, hgr⟩ := h.approved g hg
    exact ⟨r, List.mem_append_left _ hr, hgr⟩

theorem Settled.allow (h : Settled previewIsInvalid s) {row : PendingPolicyConfirmation}
    (hrow : row ∈ s.confirmations) (hstate : row.state = .pending)
    (hvalid : hasInvalidPreview previewIsInvalid row = .ok false) (grantId now : String) :
    Settled previewIsInvalid { s with
      grants := s.grants ++ [⟨confirmedGrant row, grantId, 0, now, now, none⟩]
      confirmations := settlePending row.approvalId .allowed "allow_once" (some grantId) now s.confirmations } := by
  have hother : ∀ id, id ≠ row.approvalId →
      grantsOf (s.grants ++ [⟨confirmedGrant row, grantId, 0, now, now, none⟩]) id = grantsOf s.grants id := by
    intro id hid
    simp [grantsOf, List.filter_append, confirmedGrant, hid.symm]
  have hown : grantsOf (s.grants ++ [⟨confirmedGrant row, grantId, 0, now, now, none⟩]) row.approvalId =
      [⟨confirmedGrant row, grantId, 0, now, now, none⟩] := by
    have hnone := ((rowSettled_pending hstate).mp (h.rows row hrow)).2
    rw [grantsOf] at hnone
    rw [grantsOf, List.filter_append, hnone]
    simp [confirmedGrant]
  refine ⟨h.uniqueId.updateWhere fun _ _ => rfl, ?_, ?_⟩
  · intro r hr
    rcases mem_resolved hr with ⟨r', hr', hid, -, rfl⟩ | ⟨hr, hne⟩
    · obtain rfl := h.uniqueId.eq_of_key_eq hr' hrow hid
      exact ⟨rfl, hvalid, _, hown, rfl⟩
    · refine (h.rows r hr).congr (hother _ fun hid => ?_)
      obtain rfl := h.uniqueId.eq_of_key_eq hr hrow hid
      rcases hne with hne | hne
      · exact hne rfl
      · exact hne hstate
  · intro g hg
    refine approved_resolved (fun _ => rfl) ?_
    rcases List.mem_append.mp hg with hg | hg
    · exact h.approved g hg
    · obtain rfl := List.mem_singleton.mp hg
      exact ⟨row, hrow, rfl⟩

/-- What a call does to the rows: a pending row may be resolved, and a pending row may be
added at the end. -/
inductive RowsStep (rows : List PendingPolicyConfirmation) : List PendingPolicyConfirmation → Prop where
  | same : RowsStep rows rows
  | resolve (approvalId : String) {f : PendingPolicyConfirmation → PendingPolicyConfirmation}
      (hid : ∀ r, (f r).approvalId = r.approvalId) (hstate : ∀ r, (f r).state ≠ .pending) :
      RowsStep rows (updateWhere (fun r => r.approvalId = approvalId && r.state = .pending) f rows)
  | insert {rows' : List PendingPolicyConfirmation} (row : PendingPolicyConfirmation) (h : RowsStep rows rows') :
      RowsStep rows (rows' ++ [row])

theorem RowsStep.kept {rows rows' : List PendingPolicyConfirmation} (h : RowsStep rows rows')
    {row : PendingPolicyConfirmation} (hrow : row ∈ rows) :
    ∃ r ∈ rows', r.approvalId = row.approvalId ∧ (row.state ≠ .pending → r = row) := by
  induction h with
  | same => exact ⟨row, hrow, rfl, fun _ => rfl⟩
  | resolve approvalId hid hstate =>
    refine ⟨_, mem_updateWhere.mpr ⟨row, hrow, rfl⟩, ?_⟩
    split
    · next hcond =>
      rw [Bool.and_eq_true, decide_eq_true_eq, decide_eq_true_eq] at hcond
      exact ⟨hid row, fun hresolved => absurd hcond.2 hresolved⟩
    · exact ⟨rfl, fun _ => rfl⟩
  | insert added _ ih =>
    obtain ⟨r, hr, hid⟩ := ih
    exact ⟨r, List.mem_append_left _ hr, hid⟩

theorem resolves_rowsStep {approvalId action now grantId : String} {result : Except PolicyError (Option String)}
    (h : Resolves previewIsInvalid s approvalId action now grantId result s') :
    RowsStep s.confirmations s'.confirmations := by
  cases h with
  | failed e => exact .same
  | repeated hrow hstate haction => exact .same
  | invalid hrow haction hinvalid => exact .resolve approvalId (fun _ => rfl) fun _ h => (nomatch h)
  | allowed hrow hstate haction hvalid hfresh => exact .resolve approvalId (fun _ => rfl) fun _ h => (nomatch h)
  | denied hrow hstate haction => exact .resolve approvalId (fun _ => rfl) fun _ h => (nomatch h)

theorem requests_rowsStep {request : ConfirmationRequest} {now approvalId : String}
    {result : Except PolicyError PendingPolicyConfirmation}
    (h : Requests previewIsInvalid s request now approvalId result s') :
    RowsStep s.confirmations s'.confirmations := by
  cases h with
  | failed e => exact .same
  | found hrow => exact .same
  | created expiresAt hfresh => exact .insert _ .same
  | replaced expiresAt hrow hinvalid hfresh =>
    exact .insert _ (.resolve _ (fun _ => rfl) fun _ h => (nomatch h))

theorem Settled.resolves (h : Settled previewIsInvalid s) {approvalId action now grantId : String}
    {result : Except PolicyError (Option String)}
    (hstep : Resolves previewIsInvalid s approvalId action now grantId result s') : Settled previewIsInvalid s' := by
  cases hstep with
  | failed e => exact h
  | repeated hrow hstate haction => exact h
  | invalid hrow haction hinvalid => exact h.deny (fun _ => rfl) fun _ hgrant => ⟨rfl, rfl, hgrant⟩
  | allowed hrow hstate haction hvalid hfresh =>
    obtain ⟨hmem, rfl⟩ := lookup_some hrow
    subst haction
    exact h.allow hmem hstate hvalid grantId now
  | denied hrow hstate haction =>
    subst haction
    exact h.deny (fun _ => rfl) fun _ _ => ⟨rfl, rfl, rfl⟩

theorem Settled.requests (h : Settled previewIsInvalid s) {request : ConfirmationRequest} {now approvalId : String}
    {result : Except PolicyError PendingPolicyConfirmation}
    (hstep : Requests previewIsInvalid s request now approvalId result s') : Settled previewIsInvalid s' := by
  cases hstep with
  | failed e => exact h
  | found hrow => exact h
  | created expiresAt hfresh => exact h.insert rfl rfl hfresh
  | @replaced row expiresAt hrow hinvalid hfresh =>
    have hdenied : Settled previewIsInvalid
        { s with confirmations := denyPending row.approvalId now s.confirmations } :=
      h.deny (fun _ => rfl) fun _ hgrant => ⟨rfl, rfl, hgrant⟩
    exact hdenied.insert rfl rfl hfresh

theorem Settled.step (h : Settled previewIsInvalid s) (a : ConfirmationCall) :
    Settled previewIsInvalid (confirmationStep previewIsInvalid s a) := by
  cases a with
  | getOrCreatePendingConfirmation request now ttlFrom approvalId =>
    exact h.requests (getOrCreate_requests previewIsInvalid request now ttlFrom approvalId)
  | resolveConfirmation approvalId action now grantId =>
    exact h.resolves (resolveConfirmation_resolves previewIsInvalid approvalId action now grantId)

variable (previewIsInvalid) in
theorem confirmationStep_kept (a : ConfirmationCall) {row : PendingPolicyConfirmation} (hrow : row ∈ s.confirmations) :
    ∃ r ∈ (confirmationStep previewIsInvalid s a).confirmations,
      r.approvalId = row.approvalId ∧ (row.state ≠ .pending → r = row) := by
  cases a with
  | getOrCreatePendingConfirmation request now ttlFrom approvalId =>
    exact (requests_rowsStep (getOrCreate_requests previewIsInvalid request now ttlFrom approvalId)).kept hrow
  | resolveConfirmation approvalId action now grantId =>
    exact (resolves_rowsStep (resolveConfirmation_resolves previewIsInvalid approvalId action now grantId)).kept hrow

private theorem preview_of_accepted {grants : List PolicyGrant} {row : PendingPolicyConfirmation} {action : String}
    (h : RowSettled previewIsInvalid grants row) (hresolved : row.state ≠ .pending)
    (haction : row.resolutionAction = some action) :
    (if action = "allow_once" then hasInvalidPreview previewIsInvalid row else .ok false) = .ok false := by
  split
  · next hallow =>
    cases hstate : row.state with
    | pending => exact absurd hstate hresolved
    | allowed =>
      rw [RowSettled, hstate] at h
      exact h.2.1
    | denied =>
      rw [rowSettled_denied hstate, haction, hallow] at h
      exact absurd (Option.some.inj h.1) (by decide)
    | expired =>
      rw [RowSettled, hstate] at h
      exact h.elim
  · rfl

theorem Settled.repeat_accepted (h : Settled previewIsInvalid s) {row : PendingPolicyConfirmation}
    (hrow : row ∈ s.confirmations) (hresolved : row.state ≠ .pending) {action : String}
    (haction : row.resolutionAction = some action) (now : DateTime) (grantId : String) :
    resolveConfirmation previewIsInvalid s row.approvalId action now grantId = (.ok row.grantId, s) := by
  have hlookup := h.uniqueId.lookup_eq_some_iff.mpr ⟨hrow, rfl⟩
  have hpreview := preview_of_accepted (h.rows row hrow) hresolved haction
  rw [resolveConfirmation, resolveInTransaction, hlookup]
  dsimp only
  rw [hpreview]
  dsimp only
  rw [if_pos hresolved, if_pos haction]
  rfl

theorem Settled.other_action_raises (h : Settled previewIsInvalid s) {row : PendingPolicyConfirmation}
    (hrow : row ∈ s.confirmations) (hresolved : row.state ≠ .pending) {action : String}
    (haction : row.resolutionAction ≠ some action) (now : DateTime) (grantId : String) :
    ∃ e, resolveConfirmation previewIsInvalid s row.approvalId action now grantId = (.error e, s) := by
  have hlookup := h.uniqueId.lookup_eq_some_iff.mpr ⟨hrow, rfl⟩
  have hcases := resolveConfirmation_resolves previewIsInvalid (s := s) row.approvalId action now grantId
  generalize resolveConfirmation previewIsInvalid s row.approvalId action now grantId = outcome at hcases ⊢
  obtain ⟨result, s'⟩ := outcome
  have hsame : ∀ {r : PendingPolicyConfirmation},
      lookup PendingPolicyConfirmation.approvalId row.approvalId s.confirmations = some r → r = row := by
    intro r hr
    rw [hlookup] at hr
    exact (Option.some.inj hr).symm
  cases hcases with
  | failed e => exact ⟨e, rfl⟩
  | repeated hr hstate hr' =>
    obtain rfl := hsame hr
    exact absurd hr' haction
  | invalid hr _ hinvalid =>
    -- the update finds no pending row
    have hdeny : denyPending row.approvalId (toIsoUtc now) s.confirmations = s.confirmations := by
      apply updateWhere_eq_self
      intro r hr
      by_cases hid : r.approvalId = row.approvalId
      · rw [h.uniqueId.eq_of_key_eq hr hrow hid]
        simp [hresolved]
      · simp [hid]
    rw [hdeny]
    exact ⟨_, rfl⟩
  | allowed hr hstate _ _ _ =>
    obtain rfl := hsame hr
    exact absurd hstate hresolved
  | denied hr hstate _ =>
    obtain rfl := hsame hr
    exact absurd hstate hresolved

/-- A call that was accepted leaves its row resolved by its action, with the grant that it
returned. -/
theorem accepted_row {approvalId action now grantId : String}
    {result : Option String} (hstep : Resolves previewIsInvalid s approvalId action now grantId (.ok result) s') :
    ∃ row ∈ s'.confirmations, row.approvalId = approvalId ∧ row.state ≠ .pending ∧
      row.resolutionAction = some action ∧ row.grantId = result := by
  cases hstep with
  | repeated hrow hstate haction =>
    obtain ⟨hmem, hid⟩ := lookup_some hrow
    exact ⟨_, hmem, hid, hstate, haction, rfl⟩
  | allowed hrow hstate haction hvalid hfresh =>
    obtain ⟨hmem, hid⟩ := lookup_some hrow
    refine ⟨_, mem_updateWhere.mpr ⟨_, hmem, rfl⟩, ?_⟩
    simp [hid, hstate]
  | denied hrow hstate haction =>
    obtain ⟨hmem, hid⟩ := lookup_some hrow
    refine ⟨_, mem_updateWhere.mpr ⟨_, hmem, rfl⟩, ?_⟩
    simp [hid, hstate]

theorem Settled.run (h : Settled previewIsInvalid s) (as : List ConfirmationCall) :
    Settled previewIsInvalid (run (confirmationStep previewIsInvalid) s as) :=
  run_invariant (fun _ a hs => hs.step a) h as

theorem settled_empty : Settled previewIsInvalid {} := by
  refine ⟨.nil, ?_, ?_⟩ <;> exact fun _ h => (nomatch h)

variable (previewIsInvalid) in
theorem run_kept (as : List ConfirmationCall) {row : PendingPolicyConfirmation} (hrow : row ∈ s.confirmations) :
    ∃ r ∈ (run (confirmationStep previewIsInvalid) s as).confirmations,
      r.approvalId = row.approvalId ∧ (row.state ≠ .pending → r = row) := by
  induction as generalizing s row with
  | nil => exact ⟨row, hrow, rfl, fun _ => rfl⟩
  | cons a as ih =>
    obtain ⟨r, hr, hid, hsame⟩ := confirmationStep_kept previewIsInvalid a hrow
    obtain ⟨r', hr', hid', hsame'⟩ := ih hr
    refine ⟨r', hr', hid'.trans hid, fun hresolved => ?_⟩
    obtain rfl := hsame hresolved
    exact hsame' hresolved

theorem Settled.not_pending (h : Settled previewIsInvalid s) {row : PendingPolicyConfirmation}
    (hrow : row ∈ s.confirmations) (hresolved : row.state ≠ .pending) : isPending s row.approvalId = false := by
  rw [isPending, List.any_eq_false]
  intro r hr hcond
  rw [Bool.and_eq_true, decide_eq_true_eq, decide_eq_true_eq] at hcond
  obtain rfl := h.uniqueId.eq_of_key_eq hr hrow hcond.1
  exact hresolved hcond.2

/-- A resolved row does not leave `pending` any more. -/
theorem Settled.departures_eq_zero (h : Settled previewIsInvalid s) {row : PendingPolicyConfirmation}
    (hrow : row ∈ s.confirmations) (hresolved : row.state ≠ .pending) (as : List ConfirmationCall) :
    departures previewIsInvalid row.approvalId s as = 0 := by
  induction as generalizing s with
  | nil => rfl
  | cons a as ih =>
    obtain ⟨r, hr, -, hsame⟩ := confirmationStep_kept previewIsInvalid a hrow
    rw [hsame hresolved] at hr
    rw [departures, h.not_pending hrow hresolved, ih (h.step a) hr]
    rfl

theorem Settled.departures_le_one (h : Settled previewIsInvalid s) (approvalId : String)
    (as : List ConfirmationCall) : departures previewIsInvalid approvalId s as ≤ 1 := by
  induction as generalizing s with
  | nil => exact Nat.zero_le 1
  | cons a as ih =>
    rw [departures]
    by_cases hleaves : (isPending s approvalId && !isPending (confirmationStep previewIsInvalid s a) approvalId) = true
    · rw [if_pos hleaves]
      rw [Bool.and_eq_true, Bool.not_eq_true_eq_eq_false] at hleaves
      obtain ⟨row, hrow, hcond⟩ := List.any_eq_true.mp hleaves.1
      rw [Bool.and_eq_true, decide_eq_true_eq, decide_eq_true_eq] at hcond
      obtain ⟨r, hr, hid, -⟩ := confirmationStep_kept previewIsInvalid a hrow
      have hresolved : r.state ≠ .pending := by
        intro hpending
        have hstill : isPending (confirmationStep previewIsInvalid s a) approvalId = true :=
          List.any_eq_true.mpr ⟨r, hr, by simp [hid, hcond.1, hpending]⟩
        rw [hleaves.2] at hstill
        cases hstill
      have hzero := (h.step a).departures_eq_zero hr hresolved as
      rw [hid, hcond.1] at hzero
      omega
    · rw [if_neg hleaves]
      have hrest := ih (h.step a)
      omega

def storeAfter (previewIsInvalid : Dict → Except PolicyError Bool) (as : List ConfirmationCall) : PolicyStore :=
  run (confirmationStep previewIsInvalid) {} as

variable (previewIsInvalid) in
theorem settled_storeAfter (as : List ConfirmationCall) : Settled previewIsInvalid (storeAfter previewIsInvalid as) :=
  settled_empty.run as

theorem Settled.allowed_iff (h : Settled previewIsInvalid s) {row : PendingPolicyConfirmation}
    (hrow : row ∈ s.confirmations) :
    (row.state = .allowed ↔ (grantsOf s.grants row.approvalId).length = 1) ∧
      (row.state ≠ .allowed → grantsOf s.grants row.approvalId = []) := by
  have hsettled := h.rows row hrow
  cases hstate : row.state with
  | pending => simp [((rowSettled_pending hstate).mp hsettled).2]
  | allowed =>
    rw [RowSettled, hstate] at hsettled
    obtain ⟨-, -, g, hg, -⟩ := hsettled
    simp [hg]
  | denied => simp [((rowSettled_denied hstate).mp hsettled).2.2]
  | expired =>
    rw [RowSettled, hstate] at hsettled
    exact hsettled.elim

/-- In every interleaving a row leaves `pending` at most once; it is allowed exactly when one grant carries its
approval id, and otherwise none does. After a call was accepted, the same action returns its grant and every other
raises, and neither changes the store. -/
theorem confirmation_resolved_once (previewIsInvalid : Dict → Except PolicyError Bool)
    (as bs : List ConfirmationCall) :
    (∀ approvalId, departures previewIsInvalid approvalId {} as ≤ 1) ∧
    UniqueKey PendingPolicyConfirmation.approvalId (storeAfter previewIsInvalid as).confirmations ∧
    (∀ row ∈ (storeAfter previewIsInvalid as).confirmations, row.state ≠ .pending →
      row ∈ (storeAfter previewIsInvalid (as ++ bs)).confirmations) ∧
    (∀ row ∈ (storeAfter previewIsInvalid as).confirmations,
      (row.state = .allowed ↔ (grantsOf (storeAfter previewIsInvalid as).grants row.approvalId).length = 1) ∧
      (row.state ≠ .allowed → grantsOf (storeAfter previewIsInvalid as).grants row.approvalId = [])) ∧
    (∀ approvalId action now grantId result,
      (resolveConfirmation previewIsInvalid (storeAfter previewIsInvalid as) approvalId action now grantId).1 =
        .ok result →
      ∀ later, later = storeAfter previewIsInvalid (as ++ .resolveConfirmation approvalId action now grantId :: bs) →
      ∀ now' grantId',
        resolveConfirmation previewIsInvalid later approvalId action now' grantId' = (.ok result, later) ∧
        ∀ other, other ≠ action →
          ∃ e, resolveConfirmation previewIsInvalid later approvalId other now' grantId' = (.error e, later)) := by
  have hsettled := settled_storeAfter previewIsInvalid as
  refine ⟨fun id => settled_empty.departures_le_one id as, hsettled.uniqueId, ?_, fun row => hsettled.allowed_iff, ?_⟩
  · intro row hrow hresolved
    obtain ⟨r, hr, -, hsame⟩ := run_kept previewIsInvalid bs hrow
    rw [hsame hresolved] at hr
    rw [storeAfter, run_append]
    exact hr
  · intro approvalId action now grantId result hok later heq now' grantId'
    have hstep := resolveConfirmation_resolves previewIsInvalid (s := storeAfter previewIsInvalid as) approvalId
      action now grantId
    rw [hok] at hstep
    obtain ⟨row, hrow, rfl, hresolved, haction, rfl⟩ := accepted_row hstep
    -- the resolved row is still there after the calls of `bs`
    obtain ⟨r, hr, -, hsame⟩ := run_kept previewIsInvalid bs hrow
    rw [hsame hresolved] at hr
    have hmem : row ∈ later.confirmations := by
      rw [heq, storeAfter, run_append, run_cons]
      exact hr
    have hlater : Settled previewIsInvalid later := heq ▸ settled_storeAfter previewIsInvalid _
    refine ⟨hlater.repeat_accepted hmem hresolved haction now' grantId', fun other hother => ?_⟩
    refine hlater.other_action_raises hmem hresolved ?_ now' grantId'
    rw [haction]
    intro h
    exact hother (Option.some.inj h).symm

end OpenMinion.PolicyConfirmations
