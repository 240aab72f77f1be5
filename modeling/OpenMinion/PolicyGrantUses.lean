import OpenMinion.InterleavedThreads
import OpenMinion.PolicyTables

/-!
# Uses of grants

Every call of the policy store is one transaction, but `resolve_active_grant_for_use` reads the grant in one and counts
its use in another. The uses that a row counts are the calls that returned the grant.
-/
namespace OpenMinion.PolicyGrantUses
open InterleavedThreads IsoTimestamps JsonValues KeyedTables PolicyTables TransitionRuns

structure GrantBook where
  store : PolicyStore := {}
  returned : List String := []

/-- The book after a call that left the store `s` and returned a grant, or none. -/
def GrantBook.after (b : GrantBook) (s : PolicyStore) (grantId : Option String) : GrantBook :=
  ⟨s, b.returned ++ grantId.toList⟩

@[simp] theorem GrantBook.store_after (b : GrantBook) (s : PolicyStore) (grantId : Option String) :
    (b.after s grantId).store = s := rfl

def GrantBook.returns (b : GrantBook) (grantId : String) : ℕ := b.returned.count grantId

inductive StoreCall where
  | createGrant (grantId : String) (grant : PolicyGrantInput) (now : DateTime)
  | revokeGrant (grantId : String) (now : DateTime)
  | cleanupExpired (now : DateTime)
  | consumeGrantUse (grantId : String) (now : DateTime)
  | resolveActiveGrantForUse (grantId subjectId tool method : String) (requiredTarget : Option Dict) (now : DateTime)
  | resolveMatchingActiveGrantForUse (subjectId tool method invocationHash : String) (sessionId : Option String)
      (now : DateTime)
  | getOrCreatePendingConfirmation (request : ConfirmationRequest) (now ttlFrom : DateTime) (approvalId : String)
  | resolveConfirmation (approvalId action : String) (now : DateTime) (grantId : String)

inductive ClientPlace where
  | idle
  | spending (read : PolicyGrant) (now : DateTime)

section Clients

variable (previewIsInvalid : Dict → Except PolicyError Bool)

/-- The first step of a call, which is the whole call except for `resolve_active_grant_for_use`. -/
def beginCall (b : GrantBook) : StoreCall → GrantBook × ClientPlace
  | .createGrant grantId grant now => (b.after (createGrant b.store grantId grant now).2 none, .idle)
  | .revokeGrant grantId now => (b.after (revokeGrant b.store grantId now).2 none, .idle)
  | .cleanupExpired now => (b.after (cleanupExpired b.store now) none, .idle)
  | .consumeGrantUse grantId now =>
    let (g, s) := consumeGrantUse b.store grantId now
    (b.after s (g.map PolicyGrant.grantId), .idle)
  | .resolveActiveGrantForUse grantId subjectId tool method requiredTarget now =>
    match selectActiveGrant b.store grantId subjectId tool method requiredTarget now with
    | none => (b, .idle)
    | some read => (b, .spending read now)
  | .resolveMatchingActiveGrantForUse subjectId tool method invocationHash sessionId now =>
    let (result, s) :=
      resolveMatchingActiveGrantForUse previewIsInvalid b.store subjectId tool method invocationHash sessionId now
    (b.after s (usedGrantId result), .idle)
  | .getOrCreatePendingConfirmation request now ttlFrom approvalId =>
    (b.after (getOrCreatePendingConfirmation previewIsInvalid b.store request now ttlFrom approvalId).2 none, .idle)
  | .resolveConfirmation approvalId action now grantId =>
    (b.after (resolveConfirmation previewIsInvalid b.store approvalId action now grantId).2 none, .idle)

/-- The second step of `resolve_active_grant_for_use`. -/
def nextStep (b : GrantBook) : ClientPlace → GrantBook × ClientPlace
  | .idle => (b, .idle)
  | .spending read now =>
    let (g, s) := spendActiveGrant b.store read now
    (b.after s (g.map PolicyGrant.grantId), .idle)

def ClientPlace.isIdle : ClientPlace → Bool
  | .idle => true
  | .spending _ _ => false

def clients : Threads GrantBook ClientPlace StoreCall Unit where
  isIdle := ClientPlace.isIdle
  begin := beginCall previewIsInvalid
  next b place _ := nextStep b place

end Clients

/-- What the uses of a grant keep. -/
structure WithinLimits (g : PolicyGrant) : Prop where
  once_unused : g.durationType = .once → g.revokedAt = none → g.usesCount = 0
  once_le : g.durationType = .once → g.usesCount ≤ 1
  max_le : ∀ maxUses, g.maxUses = some maxUses → (g.usesCount : ℤ) ≤ max maxUses 0

namespace WithinLimits

variable {g : PolicyGrant}

theorem of_unused (h : g.usesCount = 0) : WithinLimits g := by
  refine ⟨fun _ _ => h, fun _ => ?_, fun maxUses _ => ?_⟩
  · omega
  · rw [h]
    exact le_max_right _ _

theorem revoke (h : WithinLimits g) (now : String) : WithinLimits (revoke now g) :=
  ⟨fun _ hrevoked => (nomatch hrevoked), h.once_le, h.max_le⟩

/-- A use keeps the limits when the grant had a use left, was not revoked, and is revoked now
if it is a `once` grant. -/
theorem use (h : WithinLimits g) (hlive : g.revokedAt = none) (huses : hasUsesLeft g = true) {revokeAt : Option String}
    (honce : g.durationType = .once → revokeAt.isSome = true) (now : String) :
    WithinLimits (useGrant now revokeAt g) := by
  constructor
  · intro hdur hrevoked
    have hsome := honce hdur
    have hnone : revokeAt = none := (Option.or_eq_none_iff.mp hrevoked).1
    rw [hnone] at hsome
    cases hsome
  · intro hdur
    have hzero := h.once_unused hdur hlive
    change g.usesCount + 1 ≤ 1
    omega
  · intro maxUses hmax
    have hlt : (g.usesCount : ℤ) < maxUses := by
      have hmax' : g.maxUses = some maxUses := hmax
      simpa [hasUsesLeft, hmax'] using huses
    change ((g.usesCount + 1 : ℕ) : ℤ) ≤ max maxUses 0
    have hle : maxUses ≤ max maxUses 0 := le_max_left _ _
    push_cast
    omega

end WithinLimits

/-- The rows count the calls that returned their grants. -/
structure Balanced (b : GrantBook) : Prop where
  uniqueId : UniqueKey PolicyGrant.grantId b.store.grants
  issued : ∀ id ∈ b.returned, ∃ g ∈ b.store.grants, g.grantId = id
  counted : ∀ g ∈ b.store.grants, g.usesCount = b.returns g.grantId
  limits : ∀ g ∈ b.store.grants, WithinLimits g

/-- What one step of a client does to the book. -/
inductive BookStep (b : GrantBook) : GrantBook → Prop where
  | update {s : PolicyStore} {grants : List PolicyGrant} {used : Option String}
      (h : GrantUpdate b.store.grants used grants) (hs : s.grants = grants) : BookStep b (b.after s used)
  | insert {s : PolicyStore} {g : PolicyGrant} (hfresh : ∀ r ∈ b.store.grants, r.grantId ≠ g.grantId)
      (hunused : g.usesCount = 0) (hs : s.grants = b.store.grants ++ [g]) : BookStep b (b.after s none)

variable {b b' : GrantBook}

theorem BookStep.refl (b : GrantBook) : BookStep b b := by
  have h : BookStep b (b.after b.store none) := .update .same rfl
  simpa [GrantBook.after] using h

theorem BookStep.kept (h : BookStep b b') {g : PolicyGrant} (hg : g ∈ b.store.grants) :
    ∃ r ∈ b'.store.grants, r.grantId = g.grantId ∧ r.toPolicyGrantInput = g.toPolicyGrantInput ∧
      (g.revokedAt.isSome = true → r = g) := by
  cases h with
  | update h hs =>
    subst hs
    exact h.kept hg
  | insert hfresh hunused hs =>
    refine ⟨g, ?_, rfl, rfl, fun _ => rfl⟩
    rw [GrantBook.store_after, hs]
    exact List.mem_append_left _ hg

private theorem returns_after (b : GrantBook) (s : PolicyStore) (used : Option String) (grantId : String) :
    (b.after s used).returns grantId = b.returns grantId + if used = some grantId then 1 else 0 := by
  cases used with
  | none => simp [GrantBook.after, GrantBook.returns]
  | some id => simp [GrantBook.after, GrantBook.returns, List.count_singleton]

theorem BookStep.returns_of_revoked (h : BookStep b b') (hb : Balanced b) {g : PolicyGrant} (hg : g ∈ b.store.grants)
    (hrevoked : g.revokedAt.isSome = true) : b'.returns g.grantId = b.returns g.grantId := by
  cases h with
  | update h hs =>
    rw [returns_after]
    cases h with
    | same => rfl
    | revoke p now => rfl
    | @spend p now revokeAt grantId hp honce hrow =>
      obtain ⟨r, hr, hpr⟩ := hrow
      obtain ⟨hrid, hlive, -⟩ := hp r hr hpr
      have hother : ¬some grantId = some g.grantId := by
        intro hused
        have hsame : r = g := hb.uniqueId.eq_of_key_eq hr hg (hrid.trans (Option.some.inj hused))
        rw [← hsame, hlive] at hrevoked
        cases hrevoked
      rw [if_neg hother]
      rfl
  | insert hfresh hunused hs =>
    rw [returns_after]
    rfl

theorem Balanced.insert (hb : Balanced b) {s : PolicyStore} {g : PolicyGrant}
    (hfresh : ∀ r ∈ b.store.grants, r.grantId ≠ g.grantId) (hunused : g.usesCount = 0)
    (hs : s.grants = b.store.grants ++ [g]) : Balanced (b.after s none) := by
  have hmem : ∀ r ∈ s.grants, r ∈ b.store.grants ∨ r = g := by
    intro r hr
    rw [hs, List.mem_append, List.mem_singleton] at hr
    exact hr
  constructor
  · rw [GrantBook.store_after, hs]
    exact hb.uniqueId.append_singleton hfresh
  · intro id hid
    have hold : id ∈ b.returned := by simpa [GrantBook.after] using hid
    obtain ⟨r, hr, hrid⟩ := hb.issued id hold
    refine ⟨r, ?_, hrid⟩
    rw [GrantBook.store_after, hs]
    exact List.mem_append_left _ hr
  · intro r hr
    rw [returns_after]
    rcases hmem r hr with hold | rfl
    · exact hb.counted r hold
    · rw [hunused]
      symm
      apply List.count_eq_zero.mpr
      intro hreturned
      obtain ⟨r', hr', hid⟩ := hb.issued _ hreturned
      exact hfresh r' hr' hid
  · intro r hr
    rcases hmem r hr with hold | rfl
    · exact hb.limits r hold
    · exact .of_unused hunused

theorem GrantUpdate.limits {grants grants' : List PolicyGrant} {used : Option String}
    (h : GrantUpdate grants used grants') (hlimits : ∀ g ∈ grants, WithinLimits g) :
    ∀ g ∈ grants', WithinLimits g := by
  intro g hg
  cases h with
  | same => exact hlimits g hg
  | revoke p now =>
    obtain ⟨r, hr, rfl⟩ := mem_updateWhere.mp hg
    split
    · exact (hlimits r hr).revoke now
    · exact hlimits r hr
  | spend hp honce hrow =>
    obtain ⟨r, hr, rfl⟩ := mem_updateWhere.mp hg
    split
    · next hpr =>
      obtain ⟨-, hlive, huses⟩ := hp r hr hpr
      exact (hlimits r hr).use hlive huses (honce r hr hpr) _
    · exact hlimits r hr

private theorem issued_after {s : PolicyStore} {grants : List PolicyGrant} {used : Option String} (hb : Balanced b)
    (h : GrantUpdate b.store.grants used grants) :
    ∀ id ∈ (b.after s used).returned, ∃ g ∈ grants, g.grantId = id := by
  intro id hid
  have hold : ∃ g ∈ b.store.grants, g.grantId = id := by
    rcases List.mem_append.mp hid with hid | hid
    · exact hb.issued id hid
    · cases h with
      | same => cases hid
      | revoke p now => cases hid
      | spend hp honce hrow =>
        obtain ⟨r, hr, hpr⟩ := hrow
        obtain rfl := List.mem_singleton.mp hid
        exact ⟨r, hr, (hp r hr hpr).1⟩
  obtain ⟨g, hg, rfl⟩ := hold
  obtain ⟨r, hr, hrid, -⟩ := h.kept hg
  exact ⟨r, hr, hrid⟩

private theorem counted_after {s : PolicyStore} {grants : List PolicyGrant} {used : Option String} (hb : Balanced b)
    (h : GrantUpdate b.store.grants used grants) : ∀ g ∈ grants, g.usesCount = (b.after s used).returns g.grantId := by
  intro g hg
  rw [returns_after]
  cases h with
  | same => exact hb.counted g hg
  | revoke p now =>
    obtain ⟨r, hr, rfl⟩ := mem_updateWhere.mp hg
    split <;> exact hb.counted r hr
  | @spend p now revokeAt grantId hp honce hrow =>
    obtain ⟨r, hr, rfl⟩ := mem_updateWhere.mp hg
    have hcounted := hb.counted r hr
    split
    · next hpr =>
      obtain ⟨hid, -⟩ := hp r hr hpr
      change r.usesCount + 1 = b.returns r.grantId + if some grantId = some r.grantId then 1 else 0
      rw [if_pos (congrArg some hid.symm), hcounted]
    · next hpr =>
      obtain ⟨r', hr', hpr'⟩ := hrow
      have hother : ¬some grantId = some r.grantId := by
        intro hused
        have hsame : r' = r := hb.uniqueId.eq_of_key_eq hr' hr ((hp r' hr' hpr').1.trans (Option.some.inj hused))
        rw [hsame] at hpr'
        exact hpr hpr'
      rw [if_neg hother]
      exact hcounted

theorem Balanced.update (hb : Balanced b) {s : PolicyStore} {used : Option String}
    {grants : List PolicyGrant} (h : GrantUpdate b.store.grants used grants) (hs : s.grants = grants) :
    Balanced (b.after s used) := by
  subst hs
  constructor
  · exact h.uniqueId hb.uniqueId
  · exact issued_after hb h
  · exact counted_after hb h
  · exact GrantUpdate.limits h hb.limits

theorem BookStep.balanced (h : BookStep b b') (hb : Balanced b) : Balanced b' := by
  cases h with
  | update h hs => exact hb.update h hs
  | insert hfresh hunused hs => exact hb.insert hfresh hunused hs

/-- What is known at the place of a client: the grant that it read is one of the table. -/
def PlaceOk (b : GrantBook) : ClientPlace → Prop
  | .idle => True
  | .spending read _ =>
    ∃ g ∈ b.store.grants, g.grantId = read.grantId ∧ g.toPolicyGrantInput = read.toPolicyGrantInput

theorem BookStep.placeOk (h : BookStep b b') {place : ClientPlace} (hplace : PlaceOk b place) : PlaceOk b' place := by
  cases place with
  | idle => trivial
  | spending read now =>
    obtain ⟨g, hg, hid, hinput⟩ := hplace
    obtain ⟨r, hr, hrid, hrinput, -⟩ := h.kept hg
    exact ⟨r, hr, hrid.trans hid, hrinput.trans hinput⟩

section Clients

variable (previewIsInvalid : Dict → Except PolicyError Bool)

private theorem createGrant_step (b : GrantBook) (grantId : String) (grant : PolicyGrantInput) (now : DateTime) :
    BookStep b (b.after (createGrant b.store grantId grant now).2 none) := by
  rw [createGrant]
  cases hinsert : insertGrant b.store grantId grant (toIsoUtc now) with
  | error e => exact .update .same rfl
  | ok s =>
    obtain ⟨hfresh, rfl⟩ := insertGrant_ok hinsert
    exact .insert (g := ⟨grant, grantId, 0, toIsoUtc now, toIsoUtc now, none⟩) hfresh rfl rfl

private theorem resolveConfirmation_step (b : GrantBook) (approvalId action : String) (now : DateTime)
    (grantId : String) :
    BookStep b (b.after (resolveConfirmation previewIsInvalid b.store approvalId action now grantId).2 none) := by
  have h := resolveConfirmation_resolves previewIsInvalid (s := b.store) approvalId action now grantId
  generalize (resolveConfirmation previewIsInvalid b.store approvalId action now grantId).1 = result at h
  generalize (resolveConfirmation previewIsInvalid b.store approvalId action now grantId).2 = s at h ⊢
  cases h with
  | failed e => exact .update .same rfl
  | repeated hrow hstate haction => exact .update .same rfl
  | invalid hrow haction hinvalid => exact .update .same rfl
  | @allowed row hrow hstate haction hvalid hfresh =>
    exact .insert (g := ⟨confirmedGrant row, grantId, 0, toIsoUtc now, toIsoUtc now, none⟩) hfresh rfl rfl
  | denied hrow hstate haction => exact .update .same rfl

private theorem getOrCreate_step (b : GrantBook) (request : ConfirmationRequest) (now ttlFrom : DateTime)
    (approvalId : String) :
    BookStep b (b.after (getOrCreatePendingConfirmation previewIsInvalid b.store request now ttlFrom approvalId).2
      none) := by
  have h := getOrCreate_requests previewIsInvalid (s := b.store) request now ttlFrom approvalId
  generalize (getOrCreatePendingConfirmation previewIsInvalid b.store request now ttlFrom approvalId).1 = result at h
  generalize (getOrCreatePendingConfirmation previewIsInvalid b.store request now ttlFrom approvalId).2 = s at h ⊢
  cases h <;> exact .update .same rfl

theorem beginCall_step (hb : Balanced b) (call : StoreCall) : BookStep b (beginCall previewIsInvalid b call).1 := by
  cases call with
  | createGrant grantId grant now => exact createGrant_step b grantId grant now
  | revokeGrant grantId now => exact .update (.revoke _ _) rfl
  | cleanupExpired now => exact .update (.revoke _ _) rfl
  | consumeGrantUse grantId now => exact .update (consumeGrantUse_update hb.uniqueId grantId now) rfl
  | resolveActiveGrantForUse grantId subjectId tool method requiredTarget now =>
    rw [beginCall]
    split <;> exact .refl b
  | resolveMatchingActiveGrantForUse subjectId tool method invocationHash sessionId now =>
    exact .update (resolveMatching_update hb.uniqueId previewIsInvalid subjectId tool method invocationHash
      sessionId now) rfl
  | getOrCreatePendingConfirmation request now ttlFrom approvalId =>
    exact getOrCreate_step previewIsInvalid b request now ttlFrom approvalId
  | resolveConfirmation approvalId action now grantId =>
    exact resolveConfirmation_step previewIsInvalid b approvalId action now grantId

theorem beginCall_placeOk (b : GrantBook) (call : StoreCall) :
    PlaceOk (beginCall previewIsInvalid b call).1 (beginCall previewIsInvalid b call).2 := by
  cases call with
  | resolveActiveGrantForUse grantId subjectId tool method requiredTarget now =>
    rw [beginCall]
    split
    · trivial
    · next read hread => exact ⟨read, mem_of_selectActiveGrant hread, rfl, rfl⟩
  | _ => trivial

theorem nextStep_step (hb : Balanced b) {place : ClientPlace} (hplace : PlaceOk b place) :
    BookStep b (nextStep b place).1 := by
  cases place with
  | idle => exact .refl b
  | spending read now => exact .update (spendActiveGrant_update hb.uniqueId hplace now) rfl

variable {Client : Type} [DecidableEq Client]

theorem run_keeps {I : GrantBook → Prop} (hI : ∀ b b', Balanced b → BookStep b b' → I b → I b')
    {σ : System Client GrantBook ClientPlace} (hσ : Annotated Balanced PlaceOk σ) (h : I σ.shared)
    (as : List (Action Client StoreCall Unit)) :
    Annotated (fun b => Balanced b ∧ I b) PlaceOk (run (clients previewIsInvalid).step σ as) := by
  have hkeeps : ∀ (σ : System Client GrantBook ClientPlace) t (r : GrantBook × ClientPlace),
      Annotated (fun b => Balanced b ∧ I b) PlaceOk σ → BookStep σ.shared r.1 → PlaceOk r.1 r.2 →
      Keeps (fun b => Balanced b ∧ I b) PlaceOk σ t r := by
    intro σ t r hσ hstep hplace
    obtain ⟨hb, hi⟩ := hσ.shared
    exact ⟨⟨hstep.balanced hb, hI _ _ hb hstep hi⟩, hplace, fun t' _ => hstep.placeOk (hσ.threads t')⟩
  have hall : Guarded (clients previewIsInvalid).step (fun _ _ => True) σ as := .of_forall (fun _ _ => trivial) σ as
  refine annotated_run ?_ ?_ ⟨⟨hσ.shared, h⟩, hσ.threads⟩ hall
  · intro σ t call hσ _ _
    exact hkeeps σ t _ hσ (beginCall_step previewIsInvalid hσ.shared.1 call)
      (beginCall_placeOk previewIsInvalid σ.shared call)
  · intro σ t _ hσ _
    refine hkeeps σ t _ hσ (nextStep_step hσ.shared.1 (hσ.threads t)) ?_
    change PlaceOk _ (nextStep σ.shared (σ.threads t)).2
    cases σ.threads t <;> trivial

def atStart : System Client GrantBook ClientPlace := ⟨{}, fun _ => .idle⟩

def bookAfter (as : List (Action Client StoreCall Unit)) : GrantBook :=
  (run (clients previewIsInvalid).step atStart as).shared

omit [DecidableEq Client] in
theorem annotated_atStart : Annotated Balanced PlaceOk (atStart : System Client GrantBook ClientPlace) := by
  refine ⟨⟨.nil, ?_, ?_, ?_⟩, fun _ => trivial⟩ <;> exact fun _ h => (nomatch h)

theorem returns_run_of_revoked {σ : System Client GrantBook ClientPlace} (hσ : Annotated Balanced PlaceOk σ)
    {g : PolicyGrant} (hg : g ∈ σ.shared.store.grants) (hrevoked : g.revokedAt.isSome = true)
    (bs : List (Action Client StoreCall Unit)) :
    (run (clients previewIsInvalid).step σ bs).shared.returns g.grantId = σ.shared.returns g.grantId := by
  -- a revoked row never changes, so the run keeps it together with the number of its returns
  refine (run_keeps previewIsInvalid
    (I := fun b => g ∈ b.store.grants ∧ b.returns g.grantId = σ.shared.returns g.grantId) ?_ hσ ⟨hg, rfl⟩
    bs).shared.2.2
  intro b b' hb hstep hi
  obtain ⟨r, hr, -, -, hsame⟩ := hstep.kept hi.1
  rw [hsame hrevoked] at hr
  exact ⟨hr, (hstep.returns_of_revoked hb hi.1 hrevoked).trans hi.2⟩

/-- In every interleaving the uses that the row of a grant counts are the calls that returned it: a `once` grant at
most once, one with a limit at most that often, and none after its revocation. -/
theorem grant_never_overspent (as bs : List (Action Client StoreCall Unit)) :
    ∀ g ∈ (bookAfter previewIsInvalid as).store.grants,
      g.usesCount = (bookAfter previewIsInvalid as).returns g.grantId ∧
      (g.durationType = .once → (bookAfter previewIsInvalid as).returns g.grantId ≤ 1) ∧
      (∀ maxUses, g.maxUses = some maxUses →
        ((bookAfter previewIsInvalid as).returns g.grantId : ℤ) ≤ max maxUses 0) ∧
      (g.revokedAt.isSome = true →
        (bookAfter previewIsInvalid (as ++ bs)).returns g.grantId =
          (bookAfter previewIsInvalid as).returns g.grantId) := by
  have hrun := run_keeps previewIsInvalid (I := fun _ => True) (fun _ _ _ _ _ => trivial) annotated_atStart trivial as
  have hb : Balanced (bookAfter previewIsInvalid as) := hrun.shared.1
  intro g hg
  have hcounted := hb.counted g hg
  have hlimits := hb.limits g hg
  refine ⟨hcounted, ?_, ?_, ?_⟩
  · rw [← hcounted]
    exact hlimits.once_le
  · rw [← hcounted]
    exact hlimits.max_le
  · intro hrevoked
    rw [bookAfter, run_append]
    exact returns_run_of_revoked previewIsInvalid ⟨hb, hrun.threads⟩ hg hrevoked bs

end Clients

section TwoClients

/-- Two clients use a `once` grant: both read it before one of them counts its use. -/
def racingUses : List (Action Bool StoreCall Unit) :=
  let now : DateTime := ⟨0, zero_lt_endOfTime⟩
  [.start false (.createGrant "grant"
      { effect := .allow, tool := "project", method := "start", durationType := .once, invocationHash := some "hash" }
      now),
    .start false (.resolveActiveGrantForUse "grant" "local" "project" "start" none now),
    .start true (.resolveActiveGrantForUse "grant" "local" "project" "start" none now),
    .advance true ()]

def racedGrant : PolicyGrant :=
  let now := toIsoUtc ⟨0, zero_lt_endOfTime⟩
  { effect := .allow, tool := "project", method := "start", durationType := .once, invocationHash := some "hash",
    grantId := "grant", usesCount := 1, createdAt := now, updatedAt := now, revokedAt := some now }

theorem grant_never_overspent_racingUses :
    racedGrant ∈ (bookAfter (fun _ => .ok false) racingUses).store.grants ∧
      (bookAfter (fun _ => .ok false) (racingUses ++ [.advance false ()])).returns "grant" = 1 := by
  have hmem : racedGrant ∈ (bookAfter (fun _ => .ok false) racingUses).store.grants := by decide +kernel
  have h := grant_never_overspent (fun _ => .ok false) racingUses [.advance false ()] racedGrant hmem
  exact ⟨hmem, (h.2.2.2 rfl).trans h.1.symm⟩

end TwoClients

end OpenMinion.PolicyGrantUses
