import OpenMinion.AttemptSettlement

/-!
# Rejections of the provider

A `CommerceProviderError` ends its call and leaves the attempt of the call as it was. No later call prepares the items
of a preparation again, since there is an attempt of its target.
-/
namespace OpenMinion.CommercePrograms
open CommerceStore InterleavedThreads StatementPrograms TransitionRuns

section PreparesAgain

variable (rt : CommerceRuntime) {Thread : Type} [DecidableEq Thread] {σ : System Thread Shared Client}

/-- A call that starts later prepares the items, and gets to ask the provider for them. -/
def PreparesAgain (σ : System Thread Shared Client) (args : PrepareArgs) : Prop :=
  ∃ (before after : List (Action Thread Op Choice)) (t : Thread) (request : PrepareOrderRequest),
    (clients rt).isIdle ((run (clients rt).step σ before).threads t) = true ∧
      ((run (clients rt).step σ (before ++ .start t (.preparePublic args) :: after)).threads t).ghost.op =
        some (.preparePublic args) ∧
      ((run (clients rt).step σ (before ++ .start t (.preparePublic args) :: after)).threads t).pending =
        some (.prepareOrder request)

def Taken (targetId : String) (db : CommerceDb) : Prop :=
  ∃ a ∈ db.attempts, a.subjectId = subjectId ∧ a.kind = .preparation ∧ a.targetId = targetId

variable {rt}

theorem taken_step {targetId : String} (h : Taken targetId σ.shared.db) (action : Action Thread Op Choice) :
    Taken targetId ((clients rt).step σ action).shared.db := by
  cases action with
  | start t op =>
    rw [Threads.step]
    split
    · exact h
    · exact h
  | advance t env =>
    rw [Threads.step]
    dsimp only [clients, shared_become]
    cases (σ.threads t).program with
    | done result => exact h
    | step c next =>
      obtain ⟨a, ha, hsubject, hkind, htarget⟩ := h
      obtain ⟨b, hb, hsame⟩ := attempt_write env ha c
      exact ⟨b, hb, hsame.subjectId.trans hsubject, hsame.kind.trans hkind, hsame.targetId.trans htarget⟩

theorem insertAttempt_of_taken {targetId : String} {db : CommerceDb} (h : Taken targetId db) {row : CommerceAttempt}
    (hsubject : row.subjectId = subjectId) (hkind : row.kind = .preparation) (htarget : row.targetId = targetId) :
    (db.insertAttempt row).1 = 0 := by
  obtain ⟨a, ha, hs, hk, ht⟩ := h
  have hclash : clashes row a = true := by
    simp [clashes, sameStableTarget, hsubject, hkind, htarget, hs, hk, ht]
  rw [CommerceDb.insertAttempt, if_pos (List.any_eq_true.mpr ⟨a, ha, hclash⟩)]

/-- The client has not inserted an attempt of a target that is taken. -/
structure FindsTaken (rt : CommerceRuntime) (targetId : String) (t : Thread) (σ : System Thread Shared Client) : Prop where
  sound : Sound rt σ
  taken : Taken targetId σ.shared.db
  inserted : (σ.threads t).ghost.inserted ≠ some (.preparation, targetId)

theorem inserted_learn {g : Ghost} {c : Stmt} {r : Reply} (hpermits : permits rt g c) {targetId : String}
    (htaken : Taken targetId r.db) (h : g.inserted ≠ some (.preparation, targetId)) :
    (learn g c r).inserted ≠ some (.preparation, targetId) := by
  cases c with
  | insertAttempt kind target operation idempotencyKey requestDigest authorizationHash =>
    dsimp only [learn]
    split
    · next hone =>
      rintro ⟨⟩
      rw [insertAttempt_of_taken htaken rfl rfl (hpermits rfl)] at hone
      cases hone
    · exact h
  | findByKey | findTarget | beginAttempt | recoverPlacement | recoverAction =>
    dsimp only [learn]
    split
    · exact h
    · first
      | exact h
      | split <;> exact h
  | _ => exact h

theorem FindsTaken.step {targetId : String} {t : Thread} (h : FindsTaken rt targetId t σ) (action : Action Thread Op Choice) :
    FindsTaken rt targetId t ((clients rt).step σ action) := by
  refine ⟨h.sound.step action, taken_step h.taken action, ?_⟩
  cases action with
  | start t' op =>
    rw [Threads.step]
    split
    · rw [threads_become]
      split
      · rintro ⟨⟩
      · exact h.inserted
    · exact h.inserted
  | advance t' env =>
    rw [Threads.step, threads_become]
    split
    · next hsame =>
      dsimp only [clients]
      have hfollows := (h.sound.clients t').follows
      rw [← hsame] at hfollows ⊢
      cases hprogram : (σ.threads t).program with
      | done result => exact h.inserted
      | step c next =>
        rw [hprogram] at hfollows
        exact inserted_learn hfollows.1.2 h.taken h.inserted
    · exact h.inserted

/-- Once there is an attempt for the items, no call that starts later asks the provider to prepare them. -/
theorem not_preparesAgain (hsound : Sound rt σ) {args : PrepareArgs}
    (htaken : Taken (preparationTarget rt args.items args.promotionCode) σ.shared.db) : ¬PreparesAgain rt σ args := by
  rintro ⟨before, after, t, request, hidle, hop, hpending⟩
  rw [run_append, run_cons] at hop hpending
  have hbefore : Sound rt (run (clients rt).step σ before) ∧
      Taken (preparationTarget rt args.items args.promotionCode) (run (clients rt).step σ before).shared.db :=
    run_invariant (I := fun σ => Sound rt σ ∧ Taken (preparationTarget rt args.items args.promotionCode) σ.shared.db)
      (fun _ action h => ⟨h.1.step action, taken_step h.2 action⟩) ⟨hsound, htaken⟩ before
  generalize run (clients rt).step σ before = τ at hbefore hidle hop hpending
  have hstart : FindsTaken rt (preparationTarget rt args.items args.promotionCode) t
      ((clients rt).step τ (.start t (.preparePublic args))) := by
    refine ⟨hbefore.1.step _, taken_step hbefore.2 _, ?_⟩
    rw [Threads.step, if_pos hidle, threads_become, if_pos rfl]
    rintro ⟨⟩
  have hend := run_invariant (I := FindsTaken rt (preparationTarget rt args.items args.promotionCode) t)
    (fun _ action h => h.step action) hstart after
  generalize run (clients rt).step ((clients rt).step τ (.start t (.preparePublic args))) after = υ at hend hop hpending
  have hfollows := (hend.sound.clients t).follows
  rw [Client.pending] at hpending
  cases hprogram : (υ.threads t).program with
  | done result =>
    rw [hprogram] at hpending
    cases hpending
  | step c next =>
    rw [hprogram] at hpending hfollows
    cases hpending
    -- The call asks only with an attempt that it has inserted itself.
    obtain ⟨args', hop', -, hinserted⟩ := hfollows.1.2
    rw [hop] at hop'
    cases hop'
    exact hend.inserted (hinserted trivial)

end PreparesAgain

section Rejections

variable {rt : CommerceRuntime} {Thread : Type} [DecidableEq Thread] {σ : System Thread Shared Client}

def HasFailed (db : CommerceDb) (a : CommerceAttempt) : Prop :=
  ∃ b ∈ db.attempts, b.attemptId = a.attemptId ∧ b.state = .failed ∧ b.active = false

instance (db : CommerceDb) (a : CommerceAttempt) : Decidable (HasFailed db a) := by
  unfold HasFailed
  infer_instance

/-- An action with a new key can be reserved on the order of the attempt, when no other one is active there. -/
def Reservable (db : CommerceDb) (a : CommerceAttempt) : Prop :=
  ∀ operation idempotencyKey requestDigest authorizationHash env,
    let row := newAttempt .action a.targetId operation idempotencyKey requestDigest authorizationHash env
    (∀ b ∈ db.attempts, sameId row b = false ∧ sameKey row b = false) →
      (∀ b ∈ db.attempts, b.attemptId ≠ a.attemptId → sameActiveAction row b = false) → (db.insertAttempt row).1 = 1

/-- The attempt of the call does not stand in the way of later calls. -/
structure Unwedged (rt : CommerceRuntime) (σ : System Thread Shared Client) (op : Option Op) (a : CommerceAttempt) : Prop where
  failed : HasFailed σ.shared.db a
  preparesAgain : ∀ args, op = some (.preparePublic args) → PreparesAgain rt σ args
  reservable : a.kind = .action → Reservable σ.shared.db a

theorem reservable_of_hasFailed {db : CommerceDb} (hunique : UniqueAttempts db.attempts) {a : CommerceAttempt}
    (h : HasFailed db a) : Reservable db a := by
  intro operation idempotencyKey requestDigest authorizationHash env row hnew hothers
  obtain ⟨b, hb, hid, -, hinactive⟩ := h
  have hfree : ∀ c ∈ db.attempts, clashes row c = false := by
    intro c hc
    have hactive : sameActiveAction row c = false := by
      by_cases hsame : c.attemptId = a.attemptId
      · obtain rfl := hunique.eq_of_id hc hb (hsame.trans hid.symm)
        simp [sameActiveAction, hinactive]
      · exact hothers c hc hsame
    have htarget : sameStableTarget row c = false := by simp [sameStableTarget, row, newAttempt]
    rw [clashes, (hnew c hc).1, (hnew c hc).2, htarget, hactive]
    rfl
  rw [CommerceDb.insertAttempt, if_neg]
  rw [List.any_eq_true]
  rintro ⟨c, hc, hclash⟩
  rw [hfree c hc] at hclash
  cases hclash

/-- A statement that the provider rejects is one for the attempt of its call, and leaves the store as it is. -/
theorem attempt_of_rejected {g : Ghost} {c : Stmt} {env : Choice} (hpermits : permits rt g c)
    (hrejected : c.rejectedBy env = true) : (∃ a, g.attempt = some a) ∧ (∀ db, c.write env db = db) ∧
      ∀ args, g.op = some (.preparePublic args) → ∃ a, g.attempt = some a ∧ a.kind = .preparation ∧
        a.targetId = preparationTarget rt args.items args.promotionCode := by
  have hprepares : ∀ {asks : Prop}, preparesOwn rt g asks → (∃ a, g.attempt = some a) ∧
      ∀ args, g.op = some (.preparePublic args) → ∃ a, g.attempt = some a ∧ a.kind = .preparation ∧
        a.targetId = preparationTarget rt args.items args.promotionCode := by
    rintro asks ⟨args, hop, ⟨a, ha, hkind, htarget⟩, -⟩
    refine ⟨⟨a, ha⟩, fun args' hop' => ?_⟩
    rw [hop] at hop'
    cases hop'
    exact ⟨a, ha, hkind, htarget⟩
  cases c with
  | prepareOrder request => exact ⟨(hprepares hpermits).1, fun _ => rfl, (hprepares hpermits).2⟩
  | recoverPreparation idempotencyKey => exact ⟨(hprepares hpermits).1, fun _ => rfl, (hprepares hpermits).2⟩
  | placeOrder request attemptId =>
    obtain ⟨hnot, -, a, ha, -⟩ := hpermits
    exact ⟨⟨a, ha⟩, fun _ => rfl, fun args hop => absurd hop (hnot args)⟩
  | applyAction request attemptId =>
    obtain ⟨hnot, -, a, ha, -⟩ := hpermits
    exact ⟨⟨a, ha⟩, fun _ => rfl, fun args hop => absurd hop (hnot args)⟩
  | recoverPlacement => exact ⟨hpermits.2, fun _ => rfl, fun args hop => absurd hop (hpermits.1 args)⟩
  | recoverAction => exact ⟨hpermits.2, fun _ => rfl, fun args hop => absurd hop (hpermits.1 args)⟩
  | _ => cases hrejected

/-- A call that the provider rejects leaves the store as it is: its attempt stands in the way of nothing exactly when
the call is no preparation and the attempt had failed before. -/
theorem rejection_unwedged_iff (rt : CommerceRuntime) (Thread : Type) [DecidableEq Thread]
    (actions : List (Action Thread Op Choice)) (t : Thread) (env : Choice) (c : Stmt)
    (hpending : ((run (clients rt).step (initial Thread) actions).threads t).pending = some c)
    (hrejected : c.rejectedBy env = true) :
    let σ := run (clients rt).step (initial Thread) actions
    let σ' := (clients rt).step σ (.advance t env)
    ∃ a, (σ.threads t).ghost.attempt = some a ∧ (∃ e, (σ'.threads t).program = .done (.error e)) ∧
      σ'.shared.db = σ.shared.db ∧
        (Unwedged rt σ' (σ.threads t).ghost.op a ↔
          (∀ args, (σ.threads t).ghost.op ≠ some (.preparePublic args)) ∧ HasFailed σ.shared.db a) := by
  intro σ σ'
  have hsound : Sound rt σ := sound_run actions
  have hsound' : Sound rt σ' := hsound.step _
  have hmine := hsound.clients t
  have hfollows := hmine.follows
  change (σ.threads t).pending = some c at hpending
  rw [Client.pending] at hpending
  cases hprogram : (σ.threads t).program with
  | done result =>
    rw [hprogram] at hpending
    cases hpending
  | step c' next =>
    rw [hprogram] at hpending hfollows
    cases hpending
    obtain ⟨⟨a, ha⟩, hwrite, hown⟩ := attempt_of_rejected hfollows.1.2 hrejected
    have hdb : σ'.shared.db = σ.shared.db := by
      have hshared : σ'.shared = σ.shared.apply env c := by
        dsimp only [σ', Threads.step, clients, shared_become]
        rw [hprogram]
      rw [hshared, Shared.apply, hwrite]
    refine ⟨a, ha, ?_, hdb, ?_⟩
    · have hthread : (σ'.threads t).program = next ⟨σ.shared.db, env⟩ := by
        dsimp only [σ', Threads.step, clients]
        rw [threads_become, if_pos rfl, hprogram]
      rw [hthread]
      have hrest := hfollows.2 ⟨σ.shared.db, env⟩
      -- After the rejection no statement is permitted any more.
      have hflag : (learnCall ((σ.threads t).ghost, (σ.threads t).rejected) c ⟨σ.shared.db, env⟩).2 = true := by
        rw [learnCall, hrejected, Bool.or_true]
      cases hnext : next ⟨σ.shared.db, env⟩ with
      | done result =>
        rw [hnext] at hrest
        obtain ⟨e, rfl⟩ := hrest.1 hflag
        exact ⟨e, rfl⟩
      | step c' next' =>
        rw [hnext] at hrest
        exact absurd (hrest.1.1.symm.trans hflag) Bool.false_ne_true
    · constructor
      · intro h
        refine ⟨fun args hop => ?_, hdb ▸ h.failed⟩
        obtain ⟨a', ha', hkind, htarget⟩ := hown args hop
        obtain ⟨hsubject, b, hb, hsame⟩ := hmine.attempt a' ha'
        refine not_preparesAgain hsound' ?_ (h.preparesAgain args hop)
        rw [hdb]
        exact ⟨b, hb, hsame.subjectId.trans hsubject, hsame.kind.trans hkind, hsame.targetId.trans htarget⟩
      · rintro ⟨hnot, hfailed⟩
        have hfailed' : HasFailed σ'.shared.db a := hdb ▸ hfailed
        exact ⟨hfailed', fun args hop => absurd hop (hnot args), fun _ => reservable_of_hasFailed hsound'.unique hfailed'⟩

def askingRun : List (Action Bool Op Choice) :=
  [.start false (.preparePublic oneItem), .advance false {}, .advance false {}]

def rejectingProvider : Choice := { preparation := .rejected "OUT_OF_STOCK" }

def rejectedAttempt : CommerceAttempt :=
  newAttempt .preparation "digest" "prepare" "digest" "digest" none {}

theorem rejected_preparation_ends : ∃ a,
    ((clients plainRuntime).step (run (clients plainRuntime).step (initial Bool) askingRun)
        (.advance false rejectingProvider)).shared.db =
      (run (clients plainRuntime).step (initial Bool) askingRun).shared.db ∧
    ¬Unwedged plainRuntime ((clients plainRuntime).step (run (clients plainRuntime).step (initial Bool) askingRun)
      (.advance false rejectingProvider)) (some (.preparePublic oneItem)) a := by
  obtain ⟨a, -, -, hdb, hiff⟩ := rejection_unwedged_iff plainRuntime Bool askingRun false rejectingProvider
    (.prepareOrder ⟨"digest", oneItem.items, none⟩) rfl rfl
  exact ⟨a, hdb, fun h => (hiff.mp h).1 oneItem rfl⟩

/-- The rejected call leaves its attempt reserved and active, and no later call prepares the item. -/
theorem rejected_preparation_wedges :
    ((run (clients plainRuntime).step (initial Bool) askingRun).threads false).ghost.attempt = some rejectedAttempt ∧
      rejectedAttempt.state = .reserved ∧ rejectedAttempt.active = true ∧
        ¬Unwedged plainRuntime ((clients plainRuntime).step (run (clients plainRuntime).step (initial Bool) askingRun)
          (.advance false rejectingProvider)) (some (.preparePublic oneItem)) rejectedAttempt := by
  refine ⟨by decide +kernel, rfl, rfl, fun h => ?_⟩
  have hnot : ¬HasFailed ((clients plainRuntime).step (run (clients plainRuntime).step (initial Bool) askingRun)
      (.advance false rejectingProvider)).shared.db rejectedAttempt := by decide +kernel
  exact hnot h.failed

end Rejections

end OpenMinion.CommercePrograms
