import OpenMinion.CommerceRuns

/-!
# Settled attempts

An attempt that has succeeded or failed is settled. The statement of `finish_attempt` has no guard, so that a caller
with an earlier reservation can write over what another one has settled.
-/
namespace OpenMinion.CommercePrograms
open CommerceStore InterleavedThreads KeyedTables StatementPrograms TransitionRuns

def settled (a : CommerceAttempt) : Bool := a.state.terminal && !a.active

/-- The columns of an attempt that are settled with it. -/
def SettledAlike (a b : CommerceAttempt) : Prop :=
  b.attemptId = a.attemptId ∧ b.state = a.state ∧ b.responseDigest = a.responseDigest ∧ b.active = a.active

instance (a b : CommerceAttempt) : Decidable (SettledAlike a b) := by
  unfold SettledAlike
  infer_instance

def SettledStay (db db' : CommerceDb) : Prop :=
  ∀ a ∈ db.attempts, settled a = true → ∃ b ∈ db'.attempts, SettledAlike a b

instance (db db' : CommerceDb) : Decidable (SettledStay db db') := by
  unfold SettledStay
  infer_instance

/-- The facts are written to an open attempt or repeat what it was settled with; otherwise the index on active
actions refuses them. -/
def FinishesOpen (db : CommerceDb) (now attemptId : String) (facts : CommerceDb.Finish) : Prop :=
  db.finishClashes subjectId attemptId facts now = true ∨
    ∀ a ∈ db.attempts, CommerceDb.isAttempt subjectId attemptId a = true → settled a = true →
      a.state = facts.state ∧ a.responseDigest = facts.responseDigest

/-- The active flag says whether the state is terminal. -/
def FlagsAgree (db : CommerceDb) : Prop := ∀ a ∈ db.attempts, a.active = !a.state.terminal

section Statements

variable {db : CommerceDb} {env : Choice}

theorem mem_write_of_settled {c : Stmt} (hc : ∀ attemptId facts, c ≠ .finishAttempt attemptId facts) {a : CommerceAttempt}
    (ha : a ∈ db.attempts) (hsettled : settled a = true) : a ∈ (c.write env db).attempts := by
  cases c with
  | insertAttempt =>
    rw [Stmt.write, CommerceDb.insertAttempt]
    split
    · exact ha
    · exact List.mem_append_left _ ha
  | beginAttempt kind attemptId =>
    refine mem_updateWhere.mpr ⟨a, ha, ?_⟩
    -- An attempt is begun only while it is reserved.
    rw [if_neg]
    intro hcan
    rw [CommerceDb.canBegin, decide_eq_true_eq] at hcan
    rw [settled, hcan.2.2.2.1] at hsettled
    cases hsettled
  | finishAttempt attemptId facts => exact absurd rfl (hc attemptId facts)
  | insertPreparation =>
    rw [Stmt.write, CommerceDb.insertPreparation]
    split <;> exact ha
  | insertOrder =>
    rw [Stmt.write, CommerceDb.insertOrder]
    split
    · exact ha
    · split <;> exact ha
  | insertActionPreparation =>
    rw [Stmt.write, CommerceDb.insertActionPreparation]
    split <;> exact ha
  | _ => exact ha

/-- A statement that finishes an attempt keeps the settled ones exactly when it finishes an open one. -/
theorem settledStay_finish (hunique : UniqueAttempts db.attempts) (attemptId : String) (facts : CommerceDb.Finish) :
    SettledStay db ((Stmt.finishAttempt attemptId facts).write env db) ↔ FinishesOpen db env.now attemptId facts := by
  have hunique' := CommerceDb.unique_finishAttempt hunique subjectId attemptId facts env.now
  rw [Stmt.write]
  rw [CommerceDb.finishAttempt] at hunique' ⊢
  by_cases hclash : db.finishClashes subjectId attemptId facts env.now = true
  · rw [if_pos hclash]
    exact ⟨fun _ => .inl hclash, fun _ a ha _ => ⟨a, ha, rfl, rfl, rfl, rfl⟩⟩
  · rw [if_neg hclash] at hunique' ⊢
    constructor
    · refine fun hstay => .inr fun a ha hnamed hsettled => ?_
      obtain ⟨b, hb, hid, hstate, hdigest, -⟩ := hstay a ha hsettled
      have hwritten : CommerceDb.finished facts env.now a ∈
          updateWhere (CommerceDb.isAttempt subjectId attemptId) (CommerceDb.finished facts env.now) db.attempts :=
        mem_updateWhere.mpr ⟨a, ha, if_pos hnamed⟩
      -- The row of the identifier is the one that was written.
      obtain rfl := hunique'.eq_of_id hb hwritten hid
      exact ⟨hstate.symm, hdigest.symm⟩
    · rintro (hnot | hopen) a ha hsettled
      · exact absurd hnot hclash
      · by_cases hnamed : CommerceDb.isAttempt subjectId attemptId a = true
        · obtain ⟨hstate, hdigest⟩ := hopen a ha hnamed hsettled
          refine ⟨_, mem_updateWhere.mpr ⟨a, ha, if_pos hnamed⟩, rfl, hstate.symm, hdigest.symm, ?_⟩
          rw [settled, Bool.and_eq_true, Bool.not_eq_true'] at hsettled
          rw [hsettled.2, CommerceDb.finished, ← hstate, hsettled.1, Bool.not_true]
        · exact ⟨a, mem_updateWhere.mpr ⟨a, ha, if_neg hnamed⟩, rfl, rfl, rfl, rfl⟩

theorem flagsAgree_write (h : FlagsAgree db) (c : Stmt) : FlagsAgree (c.write env db) := by
  cases c with
  | insertAttempt =>
    rw [Stmt.write, CommerceDb.insertAttempt]
    split
    · exact h
    · intro a ha
      rcases List.mem_append.mp ha with hold | hnew
      · exact h a hold
      · rw [List.mem_singleton.mp hnew]
        rfl
  | beginAttempt kind attemptId =>
    intro b hb
    obtain ⟨a, ha, rfl⟩ := mem_updateWhere.mp hb
    split
    · next hcan =>
      rw [CommerceDb.canBegin, decide_eq_true_eq] at hcan
      rw [CommerceDb.begun, h a ha, hcan.2.2.2.1]
      rfl
    · exact h a ha
  | finishAttempt attemptId facts =>
    rw [Stmt.write, CommerceDb.finishAttempt]
    split
    · exact h
    · intro b hb
      obtain ⟨a, ha, rfl⟩ := mem_updateWhere.mp hb
      split
      · rfl
      · exact h a ha
  | insertPreparation =>
    rw [Stmt.write, CommerceDb.insertPreparation]
    split <;> exact h
  | insertOrder =>
    rw [Stmt.write, CommerceDb.insertOrder]
    split
    · exact h
    · split <;> exact h
  | insertActionPreparation =>
    rw [Stmt.write, CommerceDb.insertActionPreparation]
    split <;> exact h
  | _ => exact h

end Statements

def Client.pending (l : Client) : Option Stmt :=
  match l.program with
  | .done _ => none
  | .step c _ => some c

section Runs

variable (rt : CommerceRuntime) {Thread : Type} [DecidableEq Thread] {σ : System Thread Shared Client}

def KeepsSettled (σ : System Thread Shared Client) (action : Action Thread Op Choice) : Prop :=
  SettledStay σ.shared.db ((clients rt).step σ action).shared.db

instance (σ : System Thread Shared Client) (action : Action Thread Op Choice) : Decidable (KeepsSettled rt σ action) := by
  unfold KeepsSettled
  infer_instance

omit [DecidableEq Thread] in
def OpenFinishes (σ : System Thread Shared Client) : Action Thread Op Choice → Prop
  | .start _ _ => True
  | .advance t env => ∀ attemptId facts, (σ.threads t).pending = some (.finishAttempt attemptId facts) →
      FinishesOpen σ.shared.db env.now attemptId facts

variable {rt}

theorem keepsSettled_iff (hunique : UniqueAttempts σ.shared.db.attempts) (action : Action Thread Op Choice) :
    KeepsSettled rt σ action ↔ OpenFinishes σ action := by
  have hrefl : SettledStay σ.shared.db σ.shared.db := fun a ha _ => ⟨a, ha, rfl, rfl, rfl, rfl⟩
  cases action with
  | start t op =>
    rw [KeepsSettled, Threads.step]
    refine ⟨fun _ => trivial, fun _ => ?_⟩
    split
    · exact hrefl
    · exact hrefl
  | advance t env =>
    rw [KeepsSettled, Threads.step, OpenFinishes]
    dsimp only [clients, shared_become, Client.pending]
    cases hprogram : (σ.threads t).program with
    | done result => exact ⟨by rintro _ attemptId facts ⟨⟩, fun _ => hrefl⟩
    | step c next =>
      dsimp only [Shared.apply]
      by_cases hc : ∃ attemptId facts, c = .finishAttempt attemptId facts
      · obtain ⟨attemptId, facts, rfl⟩ := hc
        rw [settledStay_finish hunique]
        constructor
        · rintro hopen _ _ ⟨⟩
          exact hopen
        · exact fun hopen => hopen attemptId facts rfl
      · push Not at hc
        refine ⟨fun _ attemptId facts h => absurd (Option.some_inj.mp h) (hc attemptId facts), fun _ a ha hsettled => ?_⟩
        exact ⟨a, mem_write_of_settled hc ha hsettled, rfl, rfl, rfl, rfl⟩

variable (rt) in
theorem flagsAgree_run (actions : List (Action Thread Op Choice)) :
    FlagsAgree (run (clients rt).step (initial Thread) actions).shared.db := by
  have hinitial : FlagsAgree (initial Thread).shared.db := by
    intro a ha
    cases ha
  refine run_invariant (I := fun σ : System Thread Shared Client => FlagsAgree σ.shared.db) (fun σ action h => ?_) hinitial
    actions
  cases action with
  | start t op =>
    rw [Threads.step]
    split
    · exact h
    · exact h
  | advance t env =>
    rw [Threads.step]
    dsimp only [clients, shared_become]
    cases (σ.threads t).program with
    | done result => exact h
    | step c next => exact flagsAgree_write h c

/-- What is settled stays so along a run exactly when every attempt that is finished is open, or is finished with its
own facts; and never are two actions of an order unsettled. -/
theorem settled_kept_iff (rt : CommerceRuntime) (Thread : Type) [DecidableEq Thread]
    (actions : List (Action Thread Op Choice)) :
    (Guarded (clients rt).step (KeepsSettled rt) (initial Thread) actions ↔
      Guarded (clients rt).step OpenFinishes (initial Thread) actions) ∧
    ∀ a ∈ (run (clients rt).step (initial Thread) actions).shared.db.attempts,
      ∀ b ∈ (run (clients rt).step (initial Thread) actions).shared.db.attempts,
        a.kind = .action → b.kind = .action → a.subjectId = b.subjectId → a.targetId = b.targetId →
          settled a = false → settled b = false → a = b := by
  constructor
  · exact guarded_congr (I := Sound rt) (fun _ action h => h.step action) (fun σ action h => keepsSettled_iff h.unique action)
      sound_initial actions
  · intro a ha b hb hka hkb hsubject htarget hopen hopen'
    have hflags := flagsAgree_run rt actions
    have hactive : ∀ x ∈ (run (clients rt).step (initial Thread) actions).shared.db.attempts, settled x = false →
        x.active = true := by
      intro x hx hnot
      rw [settled, hflags x hx, Bool.not_not, Bool.and_self] at hnot
      rw [hflags x hx, hnot, Bool.not_false]
    exact (sound_run actions).unique.eq_of_active ha hb hsubject htarget hka hkb (hactive a ha hopen) (hactive b hb hopen')

def plainRuntime : CommerceRuntime where
  merchantId := "merchant"
  safeLinks := id
  commerceDigest := fun _ => "digest"
  isExpired := fun _ _ => false

def oneItem : PrepareArgs := ⟨[⟨"offer", "variant", 1⟩], none⟩

def preparedItem : OrderPreparation where
  preparationRef := "preparation"
  checkoutRef := "checkout"
  checkoutRevision := "1"
  items := [⟨some "line", 1, []⟩]
  merchantId := "merchant"
  buyerLabel := "buyer"
  destinationLabel := "home"
  paymentLabel := "card"
  subtotal := ⟨"EUR", 100⟩
  total := ⟨"EUR", 100⟩
  warnings := []
  links := []
  state := .prepared
  expiresAt := "later"
  preparationDigest := "digest"
  details := []

def unansweredCall : List (Action Bool Op Choice) :=
  [.start false (.preparePublic oneItem), .advance false {}, .advance false {},
    .advance false { preparation := .outcomeUnknown }, .advance false { recoveredPreparation := .returns none }]

def recoveringCall : List (Action Bool Op Choice) :=
  [Action.start true (Op.preparePublic oneItem), Action.advance true ({} : Choice), Action.advance true ({} : Choice),
    Action.advance true ({ recoveredPreparation := .returns (some preparedItem) } : Choice)] ++ List.replicate 5 (Action.advance true ({} : Choice))

/-- The first caller then writes `outcome_unknown` over the attempt that has succeeded. -/
theorem stale_finish_reopens :
    ¬Guarded (clients plainRuntime).step (KeepsSettled plainRuntime) (initial Bool)
      (unansweredCall ++ recoveringCall ++ [Action.advance false ({} : Choice)]) := by
  decide +kernel

end Runs

end OpenMinion.CommercePrograms
