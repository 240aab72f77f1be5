import OpenMinion.CommercePrograms

/-!
# Clients of the commerce runtime

Along a call goes what its client found. The provider is asked to place an order or to apply an action only for an
attempt that the call itself has begun, which is that of the preparation or of the key of the action.
-/
namespace OpenMinion.CommercePrograms
open CommerceStore InterleavedThreads JsonValues StatementPrograms TransitionRuns

structure Ghost where
  op : Option Op
  /-- The key for which this call inserted an attempt. -/
  inserted : Option (AttemptKind × String) := none
  /-- The attempt of the call, as it was found. -/
  attempt : Option CommerceAttempt := none
  /-- The attempt that the call has begun and not yet submitted. -/
  begun : Option String := none
  submitted : Bool := false
  /-- What the provider has recovered. -/
  placements : List OrderPlacement := []
  results : List OrderActionResult := []
  /-- An attempt that this call inserted was not there. -/
  missing : Bool := false

def learn (g : Ghost) (c : Stmt) (r : Reply) : Ghost :=
  match c with
  | .insertAttempt kind targetId operation idempotencyKey requestDigest authorizationHash =>
    if (r.db.insertAttempt (newAttempt kind targetId operation idempotencyKey requestDigest authorizationHash r.env)).1 = 1
    then { g with inserted := some (kind, idempotencyKey) } else g
  | .findByKey kind idempotencyKey =>
    match r.db.getAttemptByIdempotency subjectId kind idempotencyKey with
    | some a => { g with attempt := some a }
    | none => if g.inserted = some (kind, idempotencyKey) then { g with missing := true } else g
  | .findTarget kind targetId =>
    match r.db.findReservedTarget subjectId kind targetId with
    | some a => { g with attempt := some a }
    | none => g
  | .beginAttempt kind attemptId =>
    if (r.db.beginAttempt kind subjectId attemptId r.env.now).1 = 1 then { g with begun := some attemptId } else g
  | .placeOrder .. => { g with begun := none, submitted := true }
  | .applyAction .. => { g with begun := none, submitted := true }
  | .recoverPlacement .. =>
    match r.env.recoveredPlacement with
    | .returns (some placement) => { g with placements := placement :: g.placements }
    | _ => g
  | .recoverAction .. =>
    match r.env.recoveredResult with
    | .returns (some result) => { g with results := result :: g.results }
    | _ => g
  | _ => g

/-- The attempt of a prepare call is the one of its items, and the call has inserted it when it asks for more than to
recover. -/
def preparesOwn (rt : CommerceRuntime) (g : Ghost) (asks : Prop) : Prop :=
  ∃ args, g.op = some (.preparePublic args) ∧
    (∃ a, g.attempt = some a ∧ a.kind = .preparation ∧ a.targetId = preparationTarget rt args.items args.promotionCode) ∧
    (asks → g.inserted = some (.preparation, preparationTarget rt args.items args.promotionCode))

def notPreparing (g : Ghost) : Prop := ∀ args, g.op ≠ some (.preparePublic args)

def permits (rt : CommerceRuntime) (g : Ghost) : Stmt → Prop
  | .insertAttempt kind targetId _ idempotencyKey _ _ => kind = .preparation → targetId = idempotencyKey
  | .prepareOrder _ => preparesOwn rt g True
  | .recoverPreparation _ => preparesOwn rt g False
  | .placeOrder request attemptId => notPreparing g ∧ g.begun = some attemptId ∧
      ∃ a, g.attempt = some a ∧ a.attemptId = attemptId ∧ a.kind = .placement ∧ a.targetId = request.preparationRef
  | .applyAction request attemptId => notPreparing g ∧ g.begun = some attemptId ∧
      ∃ a, g.attempt = some a ∧ a.attemptId = attemptId ∧ a.kind = .action ∧
        (a.idempotencyKey = request.idempotencyKey ∨ g.missing = true)
  | .recoverPlacement .. | .recoverAction .. => notPreparing g ∧ ∃ a, g.attempt = some a
  | _ => True

def Stmt.rejectedBy (env : Choice) : Stmt → Bool
  | .prepareOrder .. => env.preparation.isRejected
  | .recoverPreparation .. => env.recoveredPreparation.isRejected
  | .placeOrder .. => env.placement.isRejected
  | .recoverPlacement .. => env.recoveredPlacement.isRejected
  | .applyAction .. => env.result.isRejected
  | .recoverAction .. => env.recoveredResult.isRejected
  | _ => false

/-- What is permitted until the provider rejects something; then the call ends. -/
def permitsCall (rt : CommerceRuntime) (g : Ghost × Bool) (c : Stmt) : Prop := g.2 = false ∧ permits rt g.1 c

def learnCall (g : Ghost × Bool) (c : Stmt) (r : Reply) : Ghost × Bool := (learn g.1 c r, g.2 || c.rejectedBy r.env)

/-- A program that asks for what is permitted, raises what it is rejected with, and leaves the client with what is
claimed when it returns. -/
def Follows (rt : CommerceRuntime) {α : Type} (Q : Ghost → α → Prop) (g : Ghost) (m : CommerceM α) : Prop :=
  Program.Obeys (permitsCall rt) learnCall
    (fun g r => (g.2 = true → ∃ e, r = .error e) ∧ ∀ a, r = .ok a → Q g.1 a) (g, false) m.run

section Rules

variable {rt : CommerceRuntime} {α β : Type} {g : Ghost}

theorem follows_pure {Q : Ghost → α → Prop} {a : α} (h : Q g a) : Follows rt Q g (pure a) := by
  refine ⟨fun hrejected => (nomatch hrejected), ?_⟩
  rintro b hb
  cases hb
  exact h

theorem follows_throw {Q : Ghost → α → Prop} (e : Failure) : Follows rt Q g (throw e) := by
  refine ⟨fun _ => ⟨e, rfl⟩, ?_⟩
  rintro b hb
  cases hb

theorem follows_ask {Q : Ghost → α → Prop} {c : Stmt} {f : Reply → Except Failure α} (hpermits : permits rt g c)
    (hrejected : ∀ r, c.rejectedBy r.env = true → ∃ e, f r = .error e)
    (h : ∀ r a, f r = .ok a → Q (learn g c r) a) : Follows rt Q g (ask c f) := by
  refine ⟨⟨rfl, hpermits⟩, fun r => ⟨fun hrej => ?_, fun a ha => h r a ha⟩⟩
  rw [learnCall, Bool.false_or] at hrej
  exact hrejected r hrej

theorem follows_own {Q : Ghost → α → Prop} {c : Stmt} {f : Reply → Except Failure α} (hpermits : permits rt g c)
    (hnever : ∀ env, c.rejectedBy env = false) (h : ∀ r a, f r = .ok a → Q (learn g c r) a) : Follows rt Q g (ask c f) := by
  refine follows_ask hpermits (fun r hrej => ?_) h
  rw [hnever] at hrej
  cases hrej

theorem follows_call {Q : Ghost → α → Prop} {c : Stmt} {answer : Choice → Answer α} (hpermits : permits rt g c)
    (hrejected : ∀ env, c.rejectedBy env = (answer env).isRejected)
    (h : ∀ r a, answer r.env = .returns a → Q (learn g c r) a) : Follows rt Q g (call c answer) := by
  refine follows_ask hpermits (fun r hrej => ?_) (fun r a ha => ?_)
  · rw [hrejected] at hrej
    cases hanswer : answer r.env with
    | rejected code => exact ⟨_, rfl⟩
    | returns | outcomeUnknown | raises =>
      rw [hanswer] at hrej
      cases hrej
  · cases hanswer : answer r.env with
    | returns value =>
      rw [hanswer] at ha
      cases ha
      exact h r a hanswer
    | outcomeUnknown | rejected | raises =>
      rw [hanswer] at ha
      cases ha

theorem follows_tryCall {Q : Ghost → Option α → Prop} {c : Stmt} {answer : Choice → Answer α} (hpermits : permits rt g c)
    (hrejected : ∀ env, c.rejectedBy env = (answer env).isRejected) (h : ∀ r a, Q (learn g c r) a) :
    Follows rt Q g (tryCall c answer) := by
  refine follows_ask hpermits (fun r hrej => ?_) (fun r a _ => h r a)
  rw [hrejected] at hrej
  cases hanswer : answer r.env with
  | rejected code => exact ⟨_, rfl⟩
  | returns | outcomeUnknown | raises =>
    rw [hanswer] at hrej
    cases hrej

theorem Follows.bind {P : Ghost → α → Prop} {Q : Ghost → β → Prop} {m : CommerceM α} {f : α → CommerceM β}
    (hm : Follows rt P g m) (hf : ∀ g a, P g a → Follows rt Q g (f a)) : Follows rt Q g (m >>= f) := by
  refine Program.Obeys.bind hm ?_
  rintro ⟨g', rejected⟩ (e | a) ⟨hrejected, hP⟩
  · refine ⟨fun _ => ⟨e, rfl⟩, ?_⟩
    rintro b hb
    cases hb
  · cases rejected with
    | false => exact hf g' a (hP a rfl)
    | true =>
      obtain ⟨e, he⟩ := hrejected rfl
      cases he

theorem Follows.mono {P Q : Ghost → α → Prop} {m : CommerceM α} (hm : Follows rt P g m) (h : ∀ g a, P g a → Q g a) :
    Follows rt Q g m := 
  Program.Obeys.mono hm fun g _ hP => ⟨hP.1, fun a ha => h g.1 a (hP.2 a ha)⟩

def Quiet : Stmt → Prop
  | .look | .finishAttempt .. | .insertPreparation .. | .invalidatePreparation .. | .insertOrder .. | .updateLifecycle ..
  | .insertActionPreparation .. | .inspect | .credentials | .prepareAction .. => True
  | _ => False

def Steady (rt : CommerceRuntime) (m : CommerceM α) : Prop := ∀ g, Follows rt (fun g' _ => g' = g) g m

theorem steady_pure (a : α) : Steady rt (pure a) := fun _ => follows_pure rfl

theorem steady_throw (e : Failure) : Steady rt (throw e : CommerceM α) := fun _ => follows_throw e

theorem steady_ask {c : Stmt} {f : Reply → Except Failure α} (h : Quiet c) : Steady rt (ask c f) := by
  intro g
  cases c with
  | look | finishAttempt | insertPreparation | invalidatePreparation | insertOrder | updateLifecycle
  | insertActionPreparation | inspect | credentials | prepareAction =>
    exact follows_own trivial (fun _ => rfl) fun r a _ => rfl
  | _ => exact h.elim

theorem Steady.bind {m : CommerceM α} {f : α → CommerceM β} (hm : Steady rt m) (hf : ∀ a, Steady rt (f a)) :
    Steady rt (m >>= f) := by
  intro g
  refine (hm g).bind ?_
  rintro g' a rfl
  exact hf a g'

theorem steady_look (f : CommerceDb → α) : Steady rt (look f) := steady_ask trivial

theorem Steady.then {m : CommerceM α} {f : α → CommerceM β} {Q : Ghost → β → Prop} (hm : Steady rt m)
    (hf : ∀ a, Follows rt Q g (f a)) : Follows rt Q g (m >>= f) := by
  refine (hm g).bind ?_
  rintro g' a rfl
  exact hf a

end Rules

section Quiet

variable {rt : CommerceRuntime}

theorem steady_finishAttempt (attempt : AttemptReservation) (facts : CommerceDb.Finish) :
    Steady rt (finishAttempt attempt facts) := by
  refine (steady_ask (by exact trivial)).bind fun _ => (steady_look _).bind ?_
  rintro (_ | row)
  · exact steady_throw _
  · exact steady_pure _

theorem steady_requireOwnedPreparation (preparationRef : String) : Steady rt (requireOwnedPreparation preparationRef) := by
  refine (steady_look _).bind ?_
  rintro (_ | record)
  · exact steady_throw _
  · exact steady_pure _

theorem steady_requireOwnedOrder (orderRef : String) : Steady rt (requireOwnedOrder orderRef) := by
  refine (steady_look _).bind ?_
  rintro (_ | record)
  · exact steady_throw _
  · exact steady_pure _

theorem steady_inspect : Steady rt (inspect rt) := by
  refine (steady_ask (by exact trivial)).bind ?_
  rintro (merchantId | checkout | order | _)
  · dsimp only
    split
    · exact steady_throw _
    · exact steady_pure _
  · exact steady_pure _
  · exact steady_pure _
  · exact steady_pure _

theorem steady_savePreparation (preparation : OrderPreparation) (attempt : AttemptReservation) :
    Steady rt (savePreparation preparation attempt) := by
  refine (steady_look _).bind ?_
  rintro (_ | row)
  · exact steady_throw _
  · dsimp only
    split
    · exact steady_throw _
    · refine (steady_ask (by exact trivial)).bind fun created => (steady_look _).bind ?_
      rintro (_ | record)
      · dsimp only
        split <;> exact steady_throw _
      · dsimp only
        split
        · exact steady_throw _
        · exact steady_pure _

theorem steady_validatedPreparation (preparation : OrderPreparation) (attempt : AttemptReservation) :
    Steady rt (validatedPreparation rt preparation attempt) := by
  rw [validatedPreparation]
  split
  · exact (steady_finishAttempt _ _).bind fun _ => steady_throw _
  · exact (steady_savePreparation _ _).bind fun _ => (steady_finishAttempt _ _).bind fun _ => steady_pure _

theorem steady_validatedPlacePreparation (args : PlaceArgs) : Steady rt (validatedPlacePreparation rt args) := by
  refine (steady_requireOwnedPreparation _).bind fun record => ?_
  split
  · exact steady_throw _
  · split
    · exact steady_throw _
    · refine (steady_ask (by exact trivial)).bind fun expired => ?_
      split
      · exact steady_throw _
      · exact steady_pure _

theorem steady_refreshPreparation (preparation : OrderPreparation) : Steady rt (refreshPreparation rt preparation) := by
  refine steady_inspect.bind fun refreshed => ?_
  split
  · exact steady_throw _
  · exact steady_pure _

theorem steady_resolvePlacementCredentials (preparation : OrderPreparation) :
    Steady rt (resolvePlacementCredentials preparation) := by
  refine (steady_ask (by exact trivial)).bind fun credentials => ?_
  split
  · exact steady_throw _
  · exact steady_pure _

theorem steady_saveOrder (orderRef : String) (placement : OrderPlacement) (attempt : AttemptReservation) :
    Steady rt (saveOrder rt orderRef placement attempt) := by
  refine (steady_look _).bind ?_
  rintro (_ | preparation)
  · exact steady_throw _
  · refine (steady_look _).bind ?_
    rintro (_ | row)
    · exact steady_throw _
    · dsimp only
      split
      · exact steady_throw _
      · refine (steady_ask (by exact trivial)).bind fun created => (steady_look _).bind ?_
        rintro (_ | record)
        · dsimp only
          split <;> exact steady_throw _
        · dsimp only
          split
          · exact steady_throw _
          · exact steady_pure _

theorem steady_persistPlacement (placement : OrderPlacement) (attempt : AttemptReservation) :
    Steady rt (persistPlacement rt placement attempt) := by
  rw [persistPlacement]
  split
  · exact (steady_saveOrder _ _ _).bind fun _ => steady_finishAttempt _ _
  · exact steady_finishAttempt _ _

theorem steady_saveActionPreparation (orderId : String) (prepared : OrderActionPreparation) :
    Steady rt (saveActionPreparation orderId prepared) := by
  refine (steady_look _).bind ?_
  rintro (_ | order)
  · exact steady_throw _
  · refine (steady_ask (by exact trivial)).bind fun created => (steady_look _).bind ?_
    rintro (_ | record)
    · dsimp only
      split <;> exact steady_throw _
    · dsimp only
      split
      · exact steady_throw _
      · exact steady_pure _

theorem steady_prepareActionPublic (args : PrepareActionArgs) : Steady rt (prepareActionPublic rt args) := by
  refine (steady_requireOwnedOrder _).bind fun _ => ?_
  dsimp only
  split
  · exact steady_throw _
  · refine steady_inspect.bind ?_
    rintro (merchantId | checkout | current | _)
    · exact steady_throw _
    · exact steady_throw _
    · dsimp only
      split
      · exact steady_throw _
      · split
        · exact steady_throw _
        · refine (steady_ask (by exact trivial)).bind ?_
          rintro (_ | preparation)
          · exact steady_pure _
          · dsimp only
            split
            · exact steady_throw _
            · exact (steady_saveActionPreparation _ _).bind fun _ => steady_pure _
    · exact steady_throw _

theorem steady_validatedActionPreparation (args : ApplyArgs) : Steady rt (validatedActionPreparation rt args) := by
  refine (steady_ask (by exact trivial)).bind fun expired => ?_
  split
  · exact steady_throw _
  · refine (steady_requireOwnedOrder _).bind fun _ => (steady_look _).bind ?_
    rintro (_ | record)
    · exact steady_throw _
    · dsimp only
      split
      · exact steady_throw _
      · refine (steady_prepareActionPublic _).bind fun refreshed => ?_
        split
        · exact steady_throw _
        · exact steady_pure _

end Quiet

section Reservations

variable {rt : CommerceRuntime} {g : Ghost}

/-- What a call knows of the attempt that it has reserved or found. -/
structure Reserved (kind : AttemptKind) (targetId idempotencyKey : String) (g : Ghost) (reservation : AttemptReservation) :
    Prop where
  inserted : reservation.created = true → g.inserted = some (kind, idempotencyKey)
  attempt : g.attempt = some reservation.attempt
  kind : reservation.attempt.kind = kind
  targetId : reservation.attempt.targetId = targetId
  idempotencyKey : reservation.attempt.idempotencyKey = idempotencyKey ∨ (reservation.created = true → g.missing = true)

/-- What a call has found out, apart from its attempt, stays. -/
structure Carried (g g' : Ghost) : Prop where
  op : g'.op = g.op
  submitted : g'.submitted = g.submitted
  placements : g'.placements = g.placements
  results : g'.results = g.results

theorem Carried.refl (g : Ghost) : Carried g g := ⟨rfl, rfl, rfl, rfl⟩

theorem Carried.notPreparing {g' : Ghost} (h : Carried g g') (hg : notPreparing g) : notPreparing g' := by
  intro args
  rw [h.op]
  exact hg args

theorem follows_checkedReservation {kind : AttemptKind} {created : Bool} {attempt : CommerceAttempt}
    {targetId operation idempotencyKey requestDigest : String} {authorizationHash : Option String}
    (hattempt : g.attempt = some attempt) (hkind : attempt.kind = kind)
    (hinserted : created = true → g.inserted = some (kind, idempotencyKey))
    (h : attempt.idempotencyKey = idempotencyKey ∨ attempt.targetId = targetId ∧ (created = true → g.missing = true)) :
    Follows rt (fun g' r => g' = g ∧ Reserved kind targetId idempotencyKey g' r) g
      (checkedReservation created attempt targetId operation idempotencyKey requestDigest authorizationHash) := by
  rw [checkedReservation]
  split
  · exact follows_throw _
  · next hfacts =>
    refine follows_pure ⟨rfl, hinserted, hattempt, hkind, ?_, ?_⟩
    · rcases h with hkey | ⟨htarget, -⟩
      · by_contra hne
        exact hfacts ⟨hkey, .inl hne⟩
      · exact htarget
    · exact h.imp_right And.right

theorem follows_reserveAttempt {kind : AttemptKind} {targetId idempotencyKey : String} (operation requestDigest : String)
    (authorizationHash : Option String) (hkey : kind = .preparation → targetId = idempotencyKey) : Follows rt
      (fun g' r => Carried g g' ∧ Reserved kind targetId idempotencyKey g' r) g
      (reserveAttempt kind targetId operation idempotencyKey requestDigest authorizationHash) := by
  have hinsert : Follows rt (fun g' created => Carried g g' ∧ (created = true → g'.inserted = some (kind, idempotencyKey))) g
      (ask (.insertAttempt kind targetId operation idempotencyKey requestDigest authorizationHash) fun r =>
        .ok (decide ((r.db.insertAttempt
          (newAttempt kind targetId operation idempotencyKey requestDigest authorizationHash r.env)).1 = 1))) := by
    refine follows_own hkey (fun _ => rfl) ?_
    rintro r created hcreated
    cases hcreated
    rw [learn]
    split
    · exact ⟨⟨rfl, rfl, rfl, rfl⟩, fun _ => rfl⟩
    · next hone => exact ⟨.refl g, fun hd => absurd (of_decide_eq_true hd) hone⟩
  refine hinsert.bind ?_
  rintro g₁ created ⟨hcarried, hinserted⟩
  have hfind : Follows rt (fun g' found => Carried g g' ∧ (created = true → g'.inserted = some (kind, idempotencyKey)) ∧
      match found with
        | some a => g'.attempt = some a ∧ a.kind = kind ∧ a.idempotencyKey = idempotencyKey
        | none => created = true → g'.missing = true) g₁
      (ask (.findByKey kind idempotencyKey) fun r => .ok (r.db.getAttemptByIdempotency subjectId kind idempotencyKey)) := by
    refine follows_own trivial (fun _ => rfl) ?_
    rintro r found hfound
    cases hfound
    rw [learn]
    cases hget : r.db.getAttemptByIdempotency subjectId kind idempotencyKey with
    | some a =>
      obtain ⟨-, -, hkind, hkey⟩ := CommerceDb.mem_of_getAttemptByIdempotency hget
      exact ⟨⟨hcarried.op, hcarried.submitted, hcarried.placements, hcarried.results⟩, hinserted, rfl, hkind, hkey⟩
    | none =>
      dsimp only
      split
      · exact ⟨⟨hcarried.op, hcarried.submitted, hcarried.placements, hcarried.results⟩, hinserted, fun _ => rfl⟩
      · next hnot => exact ⟨hcarried, hinserted, fun hc => absurd (hinserted hc) hnot⟩
  refine hfind.bind ?_
  rintro g₂ (_ | attempt) ⟨hcarried, hinserted, hfound⟩
  · have htarget : Follows rt (fun g' found => Carried g g' ∧ (created = true → g'.inserted = some (kind, idempotencyKey)) ∧
        ∀ a, found = some a →
          g'.attempt = some a ∧ a.kind = kind ∧ a.targetId = targetId ∧ (created = true → g'.missing = true)) g₂
        (ask (.findTarget kind targetId) fun r => .ok (r.db.findReservedTarget subjectId kind targetId)) := by
      refine follows_own trivial (fun _ => rfl) ?_
      rintro r found hget
      cases hget
      rw [learn]
      cases hget : r.db.findReservedTarget subjectId kind targetId with
      | some a =>
        obtain ⟨-, -, hkind, htarget, -⟩ := CommerceDb.mem_of_findReservedTarget hget
        refine ⟨⟨hcarried.op, hcarried.submitted, hcarried.placements, hcarried.results⟩, hinserted, ?_⟩
        rintro b hb
        cases hb
        exact ⟨rfl, hkind, htarget, hfound⟩
      | none => exact ⟨hcarried, hinserted, fun a ha => by cases ha⟩
    refine htarget.bind ?_
    rintro g₃ (_ | attempt) ⟨hcarried, hinserted, hfound⟩
    · exact follows_throw _
    · obtain ⟨hattempt, hkind, htarget, hmissing⟩ := hfound attempt rfl
      refine (follows_checkedReservation hattempt hkind hinserted (.inr ⟨htarget, hmissing⟩)).mono ?_
      rintro g₄ r ⟨rfl, hr⟩
      exact ⟨hcarried, hr⟩
  · refine (follows_checkedReservation hfound.1 hfound.2.1 hinserted (.inl hfound.2.2)).mono ?_
    rintro g₃ r ⟨rfl, hr⟩
    exact ⟨hcarried, hr⟩

theorem follows_beginAttempt (kind : AttemptKind) (attemptId : String) : Follows rt
    (fun g' submitting => Carried g g' ∧ g'.attempt = g.attempt ∧ g'.missing = g.missing ∧
      (submitting = true → g'.begun = some attemptId)) g (beginAttempt kind attemptId) := by
  have hbegin : Follows rt (fun g' updated => Carried g g' ∧ g'.attempt = g.attempt ∧ g'.missing = g.missing ∧
      (updated = 1 → g'.begun = some attemptId)) g
      (ask (.beginAttempt kind attemptId) fun r => .ok (r.db.beginAttempt kind subjectId attemptId r.env.now).1) := by
    refine follows_own trivial (fun _ => rfl) ?_
    rintro r updated hupdated
    cases hupdated
    rw [learn]
    split
    · exact ⟨⟨rfl, rfl, rfl, rfl⟩, rfl, rfl, fun _ => rfl⟩
    · next hone => exact ⟨.refl g, rfl, rfl, fun h => absurd h hone⟩
  refine hbegin.bind ?_
  rintro g' updated ⟨hcarried, hattempt, hmissing, hbegun⟩
  split
  · next hone =>
    refine (steady_look _ g').mono ?_
    rintro g'' found rfl
    exact ⟨hcarried, hattempt, hmissing, fun _ => hbegun hone⟩
  · exact follows_pure ⟨hcarried, hattempt, hmissing, fun h => by cases h⟩

end Reservations

section Operations

variable {rt : CommerceRuntime} {g : Ghost}

def placementOutcome (rt : CommerceRuntime) (placement : OrderPlacement) : Option OrderPlacement :=
  if placement.state ≠ .actionRequired then some { placement with links := rt.safeLinks placement.links } else none

def OnlyRecovers (rt : CommerceRuntime) (g : Ghost) : Result → Prop
  | .placed outcome => g.submitted = false → ∃ placement ∈ g.placements, outcome = placementOutcome rt placement
  | .applied result => g.submitted = false →
      ∃ recovered ∈ g.results, result = { recovered with links := rt.safeLinks recovered.links }
  | _ => True

theorem follows_placementResult (placement : OrderPlacement) (attempt : AttemptReservation) :
    Follows rt (fun g' outcome => g' = g ∧ outcome = placementOutcome rt placement) g
      (placementResult rt placement attempt) := by
  refine (steady_persistPlacement _ _).then fun _ => ?_
  rw [placementOutcome]
  dsimp only
  split
  · exact follows_pure ⟨rfl, rfl⟩
  · refine (steady_ask (by exact trivial)).then fun updated => ?_
    split
    · exact follows_throw _
    · refine (steady_look _).then ?_
      rintro (_ | record)
      · exact follows_throw _
      · exact follows_pure ⟨rfl, rfl⟩

theorem follows_settlePlacement (request : PlaceOrderRequest) (placement : OrderPlacement) (attempt : AttemptReservation) :
    Follows rt (fun g' outcome => g' = g ∧ outcome = placementOutcome rt placement) g
      (settlePlacement rt request placement attempt) := by
  rw [settlePlacement]
  split
  · exact (steady_finishAttempt _ _).then fun _ => follows_throw _
  · exact follows_placementResult _ _

theorem follows_recoverPlacement (request : PlaceOrderRequest) (hmine : notPreparing g ∧ ∃ a, g.attempt = some a) : Follows rt
    (fun g' found => g'.submitted = g.submitted ∧ ∀ placement, found = some placement → placement ∈ g'.placements) g
    (recoverPlacement request) := by
  refine follows_call hmine (fun _ => rfl) ?_
  rintro r found hanswer
  rw [learn, hanswer]
  cases found with
  | none => exact ⟨rfl, fun placement h => by cases h⟩
  | some placement =>
    refine ⟨rfl, ?_⟩
    rintro other hother
    cases hother
    exact List.mem_cons_self

theorem follows_reservePlacement (request : PlaceOrderRequest) (authorizationHash : Option String) : Follows rt
    (fun g' r => Carried g g' ∧ Reserved .placement request.preparationRef request.idempotencyKey g' r) g
    (reservePlacement rt request authorizationHash) := by
  refine (steady_requireOwnedPreparation _).then fun preparation => ?_
  split
  · exact follows_throw _
  · refine (steady_look _).then ?_
    rintro (_ | record)
    · exact follows_throw _
    · dsimp only
      split
      · exact follows_throw _
      · exact follows_reserveAttempt _ _ _ fun h => (nomatch h)

theorem follows_placeOrder (request : PlaceOrderRequest) (authorizationHash : Option String) (hop : notPreparing g) :
    Follows rt (fun g' outcome => OnlyRecovers rt g' (.placed outcome)) g (placeOrder rt request authorizationHash) := by
  have hsettled : ∀ {g' : Ghost} (other : PlaceOrderRequest) (attempt : AttemptReservation) (placement : OrderPlacement),
      (g'.submitted = true ∨ placement ∈ g'.placements) →
        Follows rt (fun g' outcome => OnlyRecovers rt g' (.placed outcome)) g' (settlePlacement rt other placement attempt) := by
    intro g' other attempt placement hfrom
    refine (follows_settlePlacement other placement attempt).mono ?_
    rintro g'' outcome ⟨rfl, houtcome⟩ hnot
    rcases hfrom with hsub | hmem
    · rw [hsub] at hnot
      cases hnot
    · exact ⟨placement, hmem, houtcome⟩
  refine (follows_reservePlacement request authorizationHash).bind ?_
  rintro g₁ attempt ⟨hcarried, hreserved⟩
  refine (follows_beginAttempt .placement attempt.attempt.attemptId).bind ?_
  rintro g₂ submitting ⟨hcarried₂, hattempt, -, hbegun⟩
  have hmine : notPreparing g₂ ∧ ∃ a, g₂.attempt = some a :=
    ⟨hcarried₂.notPreparing (hcarried.notPreparing hop), _, hattempt.trans hreserved.attempt⟩
  split
  · next hsubmitting =>
    have hplace : Follows rt (fun g' (_ : Option OrderPlacement) => g'.submitted = true ∧ notPreparing g' ∧
        ∃ a, g'.attempt = some a) g₂ (tryCall (.placeOrder request attempt.attempt.attemptId) (·.placement)) := by
      refine follows_tryCall ⟨hmine.1, hbegun hsubmitting, attempt.attempt, ?_, rfl, hreserved.kind, hreserved.targetId⟩
        (fun _ => rfl) fun _ _ => ⟨rfl, hmine⟩
      rw [hattempt, hreserved.attempt]
    refine hplace.bind ?_
    rintro g₃ (_ | placement) ⟨hsub, hmine₃⟩
    · refine (follows_recoverPlacement request hmine₃).bind ?_
      rintro g₄ (_ | placement) ⟨hkept, hfound⟩
      · exact (steady_finishAttempt _ _).then fun _ => follows_throw _
      · exact hsettled request attempt placement (.inr (hfound placement rfl))
    · exact hsettled request attempt placement (.inl hsub)
  · refine (follows_recoverPlacement _ hmine).bind ?_
    rintro g₃ (_ | placement) ⟨-, hfound⟩
    · exact follows_throw _
    · exact hsettled _ attempt placement (.inr (hfound placement rfl))

theorem follows_actionResult (result : OrderActionResult) (attempt : AttemptReservation) :
    Follows rt (fun g' r => g' = g ∧ r = { result with links := rt.safeLinks result.links }) g
      (actionResult rt result attempt) := by
  refine (steady_ask (by exact trivial)).then fun updated => ?_
  split
  · exact follows_throw _
  · refine (steady_look _).then ?_
    rintro (_ | order)
    · exact follows_throw _
    · dsimp only
      split
      · exact follows_pure ⟨rfl, rfl⟩
      · exact (steady_finishAttempt _ _).then fun _ => follows_pure ⟨rfl, rfl⟩

theorem follows_settleAction (request : ApplyOrderActionRequest) (result : OrderActionResult) (attempt : AttemptReservation) :
    Follows rt (fun g' r => g' = g ∧ r = { result with links := rt.safeLinks result.links }) g
      (settleAction rt request result attempt) := by
  rw [settleAction]
  split
  · exact (steady_finishAttempt _ _).then fun _ => follows_throw _
  · exact follows_actionResult _ _

theorem follows_recoverAction (request : ApplyOrderActionRequest) (hmine : notPreparing g ∧ ∃ a, g.attempt = some a) : Follows rt
    (fun g' found => g'.submitted = g.submitted ∧ ∀ result, found = some result → result ∈ g'.results) g
    (recoverAction request) := by
  refine follows_call hmine (fun _ => rfl) ?_
  rintro r found hanswer
  rw [learn, hanswer]
  cases found with
  | none => exact ⟨rfl, fun result h => by cases h⟩
  | some result =>
    refine ⟨rfl, ?_⟩
    rintro other hother
    cases hother
    exact List.mem_cons_self

theorem follows_reserveAction (request : ApplyOrderActionRequest) (authorizationHash : Option String) : Follows rt
    (fun g' r => Carried g g' ∧ Reserved .action request.orderRef request.idempotencyKey g' r) g
    (reserveAction rt request authorizationHash) := by
  refine (steady_look _).then ?_
  rintro (_ | order)
  · exact follows_throw _
  · exact follows_reserveAttempt _ _ _ fun h => (nomatch h)

theorem follows_applyAction (request : ApplyOrderActionRequest) (authorizationHash : Option String) (hop : notPreparing g) :
    Follows rt (fun g' result => OnlyRecovers rt g' (.applied result)) g (applyAction rt request authorizationHash) := by
  have hsettled : ∀ {g' : Ghost} (attempt : AttemptReservation) (result : OrderActionResult),
      (g'.submitted = true ∨ result ∈ g'.results) →
        Follows rt (fun g' result => OnlyRecovers rt g' (.applied result)) g' (settleAction rt request result attempt) := by
    intro g' attempt result hfrom
    refine (follows_settleAction request result attempt).mono ?_
    rintro g'' outcome ⟨rfl, houtcome⟩ hnot
    rcases hfrom with hsub | hmem
    · rw [hsub] at hnot
      cases hnot
    · exact ⟨result, hmem, houtcome⟩
  refine (follows_reserveAction request authorizationHash).bind ?_
  rintro g₁ attempt ⟨hcarried, hreserved⟩
  split
  · exact follows_throw _
  · next hopen =>
    refine (follows_beginAttempt .action attempt.attempt.attemptId).bind ?_
    rintro g₂ submitting ⟨hcarried₂, hattempt, hmissing, hbegun⟩
    have hmine : notPreparing g₂ ∧ ∃ a, g₂.attempt = some a :=
      ⟨hcarried₂.notPreparing (hcarried.notPreparing hop), _, hattempt.trans hreserved.attempt⟩
    split
    · next hsubmitting =>
      have hkey : attempt.attempt.idempotencyKey = request.idempotencyKey ∨ g₂.missing = true := by
        rcases hreserved.idempotencyKey with hkey | hmiss
        · exact .inl hkey
        · by_cases hsame : attempt.attempt.idempotencyKey = request.idempotencyKey
          · exact .inl hsame
          · have hcreated : attempt.created = true := by
              by_contra hnot
              exact hopen ⟨by simpa using hnot, hsame⟩
            exact .inr (hmissing.trans (hmiss hcreated))
      have happly : Follows rt (fun g' (_ : Option OrderActionResult) => g'.submitted = true ∧ notPreparing g' ∧
          ∃ a, g'.attempt = some a) g₂ (tryCall (.applyAction request attempt.attempt.attemptId) (·.result)) := by
        refine follows_tryCall ⟨hmine.1, hbegun hsubmitting, attempt.attempt, ?_, rfl, hreserved.kind, hkey⟩
          (fun _ => rfl) fun _ _ => ⟨rfl, hmine⟩
        rw [hattempt, hreserved.attempt]
      refine happly.bind ?_
      rintro g₃ (_ | result) ⟨hsub, hmine₃⟩
      · refine (follows_recoverAction request hmine₃).bind ?_
        rintro g₄ (_ | result) ⟨hkept, hfound⟩
        · exact (steady_finishAttempt _ _).then fun _ => follows_throw _
        · exact hsettled attempt result (.inr (hfound result rfl))
      · exact hsettled attempt result (.inl hsub)
    · refine (follows_recoverAction _ hmine).bind ?_
      rintro g₃ (_ | result) ⟨-, hfound⟩
      · exact follows_throw _
      · exact hsettled attempt result (.inr (hfound result rfl))

theorem follows_preparePublic (args : PrepareArgs) (hop : g.op = some (.preparePublic args)) :
    Follows rt (fun _ _ => True) g (preparePublic rt args) := by
  refine (follows_reserveAttempt _ _ _ fun _ => rfl).bind ?_
  rintro g₁ attempt ⟨hcarried, hreserved⟩
  have hown : ∀ {asks : Prop}, (asks → attempt.created = true) → preparesOwn rt g₁ asks := fun hasks =>
    ⟨args, hcarried.op.trans hop, ⟨attempt.attempt, hreserved.attempt, hreserved.kind, hreserved.targetId⟩,
      fun h => hreserved.inserted (hasks h)⟩
  have hvalidated : ∀ {g' : Ghost} (preparation : OrderPreparation),
      Follows rt (fun _ _ => True) g' (validatedPreparation rt preparation attempt) := fun preparation =>
    (steady_validatedPreparation preparation attempt _).mono fun _ _ _ => trivial
  split
  · next hcreated =>
    have hprepare : Follows rt (fun g' (_ : Option OrderPreparation) => g' = g₁) g₁
        (tryCall (.prepareOrder ⟨preparationTarget rt args.items args.promotionCode, args.items, args.promotionCode⟩)
          (·.preparation)) := follows_tryCall (hown fun _ => hcreated) (fun _ => rfl) fun _ _ => rfl
    refine hprepare.bind ?_
    rintro g₂ (_ | preparation) rfl
    · refine Follows.bind (P := fun _ _ => True) (follows_call (hown False.elim) (fun _ => rfl) fun _ _ _ => trivial) ?_
      rintro g₃ (_ | preparation) -
      · exact (steady_finishAttempt _ _).then fun _ => follows_throw _
      · exact hvalidated preparation
    · exact hvalidated preparation
  · refine Follows.bind (P := fun _ _ => True) (follows_call (hown False.elim) (fun _ => rfl) fun _ _ _ => trivial) ?_
    rintro g₂ (_ | preparation) -
    · exact follows_throw _
    · exact hvalidated preparation

theorem follows_program (op : Op) : Follows rt (OnlyRecovers rt) { op := some op } (program rt op) := by
  cases op with
  | preparePublic args => exact (follows_preparePublic args rfl).bind fun _ _ _ => follows_pure trivial
  | placePublic args authorizationHash =>
    have hplace : Follows rt (fun g' outcome => OnlyRecovers rt g' (.placed outcome))
        { op := some (.placePublic args authorizationHash) } (placePublic rt args authorizationHash) := by
      refine (steady_validatedPlacePreparation args).then fun preparation => ?_
      refine (steady_refreshPreparation preparation).then fun _ => ?_
      refine (steady_resolvePlacementCredentials preparation).then fun _ => ?_
      exact follows_placeOrder _ _ fun _ h => (nomatch h)
    exact hplace.bind fun _ _ h => follows_pure h
  | prepareActionPublic args =>
    exact (steady_prepareActionPublic args).then fun _ => follows_pure trivial
  | applyActionPublic args authorizationHash =>
    have happly : Follows rt (fun g' result => OnlyRecovers rt g' (.applied result))
        { op := some (.applyActionPublic args authorizationHash) } (applyActionPublic rt args authorizationHash) := by
      refine (steady_validatedActionPreparation args).then fun preparation => ?_
      exact follows_applyAction _ _ fun _ h => (nomatch h)
    exact happly.bind fun _ _ h => follows_pure h

end Operations

end OpenMinion.CommercePrograms
