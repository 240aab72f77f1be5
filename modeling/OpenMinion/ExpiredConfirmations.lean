import OpenMinion.PolicyTables

/-!
# Expired confirmations

`resolve_confirmation` writes the state of an expired confirmation and raises in the same transaction, so that the
write stays only in a transaction that a caller began and that ends without an error.
-/
namespace OpenMinion.ExpiredConfirmations
open IsoTimestamps JsonValues KeyedTables PolicyTables

/-- The committed tables, and those of the transaction that is open on the connection. -/
structure Connection where
  committed : PolicyStore
  pending : Option PolicyStore := none

namespace Connection

def tables (c : Connection) : PolicyStore := c.pending.getD c.committed

def begin (c : Connection) : Connection := { c with pending := some c.committed }

def commit (c : Connection) : Connection := { committed := c.tables }

def rollback (c : Connection) : Connection := { committed := c.committed }

def write (change : PolicyStore → PolicyStore) (c : Connection) : Connection := { c with pending := c.pending.map change }

/-- `transaction()`: only the outermost block begins and ends the transaction. -/
def transaction {A : Type} (body : Connection → A × Connection) (completed : A → Bool) (c : Connection) : A × Connection :=
  let outermost := c.pending.isNone
  let left := body (if outermost then c.begin else c)
  (left.1, if outermost then if completed left.1 then left.2.commit else left.2.rollback else left.2)

end Connection

/-- A `with transaction()` around a call: what it writes before, and whether it ends without an error. -/
structure Block where
  before : PolicyStore → PolicyStore := id
  completes : Bool

def enclosed {A : Type} : List Block → (Connection → A × Connection) → Connection → A × Connection
  | [], call, c => call c
  | block :: blocks, call, c =>
    c.transaction (fun c => enclosed blocks call (c.write block.before)) fun _ => block.completes

def expiredError : PolicyError := .control "PENDING_CONFIRMATION_EXPIRED" "Pending confirmation expired." none

/-- `UPDATE .. SET state = 'expired' .. WHERE state = 'pending'`. -/
def expirePending (approvalId now : String) (rows : List PendingPolicyConfirmation) : List PendingPolicyConfirmation :=
  updateWhere (fun r => r.approvalId = approvalId && r.state = .pending)
    (fun r => { r with state := .expired, resolvedAt := some now }) rows

section
variable (previewIsInvalid : Dict → Except PolicyError Bool) (approvalId action : String) (now : DateTime) (grantId : String)

/-- The statements of `resolve_confirmation` in its transaction, with those before an error. -/
def resolveStatements (s : PolicyStore) : Except PolicyError Resolution × PolicyStore :=
  match lookup PendingPolicyConfirmation.approvalId approvalId s.confirmations with
  | none => (.error (.control "PENDING_CONFIRMATION_NOT_FOUND" "Pending confirmation was not found." none), s)
  | some pending =>
    match (if action = "allow_once" then hasInvalidPreview previewIsInvalid pending else .ok false) with
    | .error e => (.error e, s)
    | .ok true => (.ok .invalidPreview, { s with confirmations := denyPending approvalId (toIsoUtc now) s.confirmations })
    | .ok false =>
      if pending.state ≠ .pending then
        if pending.resolutionAction = some action then (.ok (.returned pending.grantId), s)
        else (.error (.control "PENDING_CONFIRMATION_ALREADY_RESOLVED" "Pending confirmation was already resolved." none), s)
      else if pending.expiresAt ≤ toIsoUtc now then
        (.error expiredError, { s with confirmations := expirePending approvalId (toIsoUtc now) s.confirmations })
      else if action = "allow_once" then
        match insertGrant s grantId (confirmedGrant pending) (toIsoUtc now) with
        | .error e => (.error e, s)
        | .ok s' => (.ok (.returned (some grantId)),
            { s' with confirmations := settlePending approvalId .allowed action (some grantId) (toIsoUtc now) s'.confirmations })
      else if action ≠ "deny" then (.error (.value "confirmation action must be allow_once|deny"), s)
      else (.ok (.returned none),
        { s with confirmations := settlePending approvalId .denied action none (toIsoUtc now) s.confirmations })

def resolveIn (c : Connection) : Except PolicyError Resolution × Connection :=
  ((resolveStatements previewIsInvalid approvalId action now grantId c.tables).1,
    c.write fun tables => (resolveStatements previewIsInvalid approvalId action now grantId tables).2)

def resolved : Except PolicyError Resolution → Except PolicyError (Option String)
  | .error e => .error e
  | .ok .invalidPreview => .error (previewInvalidError approvalId)
  | .ok (.returned id) => .ok id

/-- `resolve_confirmation` on a connection. -/
def resolveOn (c : Connection) : Except PolicyError (Option String) × Connection :=
  let left := c.transaction (resolveIn previewIsInvalid approvalId action now grantId) Except.isOk
  (resolved approvalId left.1, left.2)

def stateOf (s : PolicyStore) : Option ConfirmationState :=
  (lookup PendingPolicyConfirmation.approvalId approvalId s.confirmations).map PendingPolicyConfirmation.state

end

variable {previewIsInvalid : Dict → Except PolicyError Bool} {approvalId action : String} {now : DateTime} {grantId : String}
  {s : PolicyStore}

theorem insertGrant_ne_expired (grant : PolicyGrantInput) (at' : String) : insertGrant s grantId grant at' ≠ .error expiredError := by
  rw [insertGrant]
  split
  · simp [expiredError]
  · simp

theorem resolveStatements_expired (hparser : ∀ preview e, previewIsInvalid preview = .error e → e = .escaped)
    (h : (resolveStatements previewIsInvalid approvalId action now grantId s).1 = .error expiredError) :
    (∃ row, lookup PendingPolicyConfirmation.approvalId approvalId s.confirmations = some row ∧ row.state = .pending) ∧
      (resolveStatements previewIsInvalid approvalId action now grantId s).2.confirmations =
        expirePending approvalId (toIsoUtc now) s.confirmations := by
  have hpreview : ∀ row e, (if action = "allow_once" then hasInvalidPreview previewIsInvalid row else .ok false) = .error e →
      e = .escaped := by
    intro row e he
    split at he
    · rw [hasInvalidPreview] at he
      split at he
      · exact hparser _ _ he
      · cases he
    · cases he
  unfold resolveStatements at h ⊢
  cases hrow : lookup PendingPolicyConfirmation.approvalId approvalId s.confirmations with
  | none =>
    rw [hrow] at h
    simp [expiredError] at h
  | some row =>
    rw [hrow] at h
    dsimp only at h ⊢
    cases hinvalid : (if action = "allow_once" then hasInvalidPreview previewIsInvalid row else .ok false) with
    | error e =>
      rw [hinvalid, hpreview row e hinvalid] at h
      cases h
    | ok invalid =>
      rw [hinvalid] at h
      cases invalid with
      | true => cases h
      | false =>
        dsimp only at h ⊢
        by_cases hstate : row.state = .pending
        · rw [if_neg (not_not.mpr hstate)] at h ⊢
          refine ⟨⟨row, rfl, hstate⟩, ?_⟩
          by_cases hexpired : row.expiresAt ≤ toIsoUtc now
          · rw [if_pos hexpired]
          · rw [if_neg hexpired] at h
            split at h
            · split at h
              · next hinsert =>
                have herror := Except.error.inj h
                subst herror
                exact absurd hinsert (insertGrant_ne_expired _ _)
              · cases h
            · split at h
              · cases h
              · cases h
        · rw [if_pos hstate] at h
          split at h
          · cases h
          · simp [expiredError] at h

def written (blocks : List Block) (tables : PolicyStore) : PolicyStore := blocks.foldl (fun tables block => block.before tables) tables

theorem enclosed_inside {A : Type} (blocks : List Block) (call : Connection → A × Connection) (committed tables : PolicyStore) :
    enclosed blocks call ⟨committed, some tables⟩ = call ⟨committed, some (written blocks tables)⟩ := by
  induction blocks generalizing tables with
  | nil => rfl
  | cons block rest ih => exact ih (block.before tables)

theorem resolveOn_inside (committed tables : PolicyStore) :
    resolveOn previewIsInvalid approvalId action now grantId ⟨committed, some tables⟩ =
      (resolved approvalId (resolveStatements previewIsInvalid approvalId action now grantId tables).1,
        ⟨committed, some (resolveStatements previewIsInvalid approvalId action now grantId tables).2⟩) := rfl

theorem resolved_eq_expired {result : Except PolicyError Resolution} (h : resolved approvalId result = .error expiredError) :
    result = .error expiredError := by
  cases result with
  | error e => exact congrArg Except.error (Except.error.inj h)
  | ok resolution =>
    cases resolution with
    | invalidPreview => simp [resolved, previewInvalidError, expiredError] at h
    | returned id => cases h

theorem stateOf_expirePending {left : PolicyStore} {at' : String}
    (h : ∃ row, lookup PendingPolicyConfirmation.approvalId approvalId s.confirmations = some row ∧ row.state = .pending)
    (hleft : left.confirmations = expirePending approvalId at' s.confirmations) : stateOf approvalId left = some .expired := by
  obtain ⟨row, hrow, hstate⟩ := h
  rw [stateOf, hleft, expirePending, lookup_updateWhere, hrow]
  · simp [hstate, (lookup_some hrow).2]
  · exact fun _ _ => rfl

/-- The error `PENDING_CONFIRMATION_EXPIRED` leaves the state `expired` exactly when the call ran
inside a transaction of its caller that ended without an error. -/
theorem expiry_recorded_iff (hparser : ∀ preview e, previewIsInvalid preview = .error e → e = .escaped)
    (hs : stateOf approvalId s ≠ some .expired) {blocks : List Block}
    (hraised : (enclosed blocks (resolveOn previewIsInvalid approvalId action now grantId) ⟨s, none⟩).1 = .error expiredError) :
    stateOf approvalId (enclosed blocks (resolveOn previewIsInvalid approvalId action now grantId) ⟨s, none⟩).2.committed =
        some .expired ↔ ∃ outermost ∈ blocks.head?, outermost.completes = true := by
  cases blocks with
  | nil =>
    have hstatements : (resolveStatements previewIsInvalid approvalId action now grantId s).1 = .error expiredError :=
      resolved_eq_expired hraised
    have hleft : (resolveOn previewIsInvalid approvalId action now grantId ⟨s, none⟩).2.committed = s := by
      change (if (resolveStatements previewIsInvalid approvalId action now grantId s).1.isOk then _ else _ : Connection).committed = s
      rw [hstatements]
      rfl
    rw [enclosed, hleft]
    exact ⟨fun h => absurd h hs, fun h => by simp at h⟩
  | cons block rest =>
    have hinside : enclosed (block :: rest) (resolveOn previewIsInvalid approvalId action now grantId) ⟨s, none⟩ =
        ((resolved approvalId (resolveStatements previewIsInvalid approvalId action now grantId (written (block :: rest) s)).1),
          if block.completes then
            ⟨(resolveStatements previewIsInvalid approvalId action now grantId (written (block :: rest) s)).2, none⟩
          else ⟨s, none⟩) := by
      have hcall := enclosed_inside rest (resolveOn previewIsInvalid approvalId action now grantId) s (block.before s)
      rw [resolveOn_inside] at hcall
      rw [enclosed, Connection.transaction]
      change ((enclosed rest _ ⟨s, some (block.before s)⟩).1, if block.completes then
        (enclosed rest _ ⟨s, some (block.before s)⟩).2.commit else (enclosed rest _ ⟨s, some (block.before s)⟩).2.rollback) = _
      rw [hcall]
      rfl
    rw [hinside] at hraised ⊢
    obtain ⟨hrow, hleft⟩ := resolveStatements_expired hparser (resolved_eq_expired hraised)
    cases hcompletes : block.completes with
    | true =>
      simp only [if_true, List.head?_cons, Option.mem_some_iff, exists_eq_left', hcompletes, iff_true]
      exact stateOf_expirePending hrow hleft
    | false =>
      simp only [Bool.false_eq_true, if_false, List.head?_cons, Option.mem_some_iff, exists_eq_left', hcompletes, iff_false]
      exact hs

def noPreview : Dict → Except PolicyError Bool := fun _ => .ok false

def resolveTime : DateTime := ⟨63919965600000000, tenOClock_lt_endOfTime⟩

def expiredStore : PolicyStore where
  confirmations :=
    [{ approvalId := "a", subjectId := "local", tool := "ops.command", method := "run", invocationHash := "h",
       invocationId := "i", traceId := none, sessionId := none, preview := [], createdAt := "2026-07-01T10:00:00+00:00",
       expiresAt := "2026-07-01T10:00:00+00:00" }]

theorem expiry_recorded_in_caller :
    stateOf "a" (enclosed [{ completes := true }] (resolveOn noPreview "a" "deny" resolveTime "g") ⟨expiredStore, none⟩).2.committed =
      some .expired := by
  have hparser : ∀ preview e, noPreview preview = .error e → e = .escaped := fun _ _ h => nomatch h
  have hraised : (enclosed [{ completes := true }] (resolveOn noPreview "a" "deny" resolveTime "g") ⟨expiredStore, none⟩).1 =
      .error expiredError := by decide +kernel
  exact (expiry_recorded_iff hparser (by decide +kernel) hraised).mpr ⟨{ completes := true }, rfl, rfl⟩

/-- The error rolls the state back. -/
theorem expiry_rolled_back :
    ¬ ∀ (previewIsInvalid : Dict → Except PolicyError Bool) (s : PolicyStore) (approvalId action : String) (now : DateTime)
        (grantId : String), (∀ preview e, previewIsInvalid preview = .error e → e = .escaped) →
      stateOf approvalId s = some .pending →
      (resolveOn previewIsInvalid approvalId action now grantId ⟨s, none⟩).1 = .error expiredError →
      stateOf approvalId (resolveOn previewIsInvalid approvalId action now grantId ⟨s, none⟩).2.committed = some .expired := by
  intro h
  have hexpired := h noPreview expiredStore "a" "deny" resolveTime "g" (fun _ _ h => nomatch h) (by decide +kernel) (by decide +kernel)
  revert hexpired
  decide +kernel

end OpenMinion.ExpiredConfirmations
