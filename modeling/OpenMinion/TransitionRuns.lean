import Mathlib.Data.List.Basic

/-!
# Runs of a deterministic step function

The action of a step carries everything that the environment decides, so that a statement about every list of actions
is one about every interleaving of the clients. An action of several statements is a `Path`.
-/
namespace OpenMinion.TransitionRuns

universe u v
variable {State : Type u} {Action : Type v}

def run (step : State → Action → State) (s : State) (as : List Action) : State :=
  as.foldl step s

@[simp] theorem run_nil (step : State → Action → State) (s : State) : run step s [] = s := rfl

@[simp] theorem run_cons (step : State → Action → State) (s : State) (a : Action)
    (as : List Action) : run step s (a :: as) = run step (step s a) as := rfl

theorem run_append (step : State → Action → State) (s : State) (as bs : List Action) :
    run step s (as ++ bs) = run step (run step s as) bs := List.foldl_append

theorem run_invariant {step : State → Action → State} {I : State → Prop}
    (hstep : ∀ s a, I s → I (step s a)) {s : State} (hs : I s) (as : List Action) :
    I (run step s as) := by
  induction as generalizing s with
  | nil => exact hs
  | cons a as ih => exact ih (hstep s a hs)

/-- A run all of whose actions are taken in states that allow them. -/
inductive Guarded (step : State → Action → State) (ok : State → Action → Prop) :
    State → List Action → Prop where
  | nil (s : State) : Guarded step ok s []
  | cons {s : State} {a : Action} {as : List Action} (head : ok s a)
      (tail : Guarded step ok (step s a) as) : Guarded step ok s (a :: as)

theorem Guarded.invariant {step : State → Action → State} {ok : State → Action → Prop}
    {I : State → Prop} (hstep : ∀ s a, I s → ok s a → I (step s a)) {s : State}
    {as : List Action} (h : Guarded step ok s as) (hs : I s) : I (run step s as) := by
  induction h with
  | nil s => exact hs
  | cons head tail ih => exact ih (hstep _ _ hs head)

theorem Guarded.of_forall {step : State → Action → State} {ok : State → Action → Prop}
    (h : ∀ s a, ok s a) (s : State) (as : List Action) : Guarded step ok s as := by
  induction as generalizing s with
  | nil => exact .nil s
  | cons a as ih => exact .cons (h s a) (ih _)

theorem Guarded.of_mem {step : State → Action → State} {ok : Action → Prop} {as : List Action} (h : ∀ a ∈ as, ok a) (s : State) :
    Guarded step (fun _ => ok) s as := by
  induction as generalizing s with
  | nil => exact .nil s
  | cons a as ih => exact .cons (h a List.mem_cons_self) (ih (fun b hb => h b (List.mem_cons_of_mem a hb)) _)

theorem Guarded.weaken {step : State → Action → State} {ok ok' : State → Action → Prop} {I : State → Prop}
    (hstep : ∀ s a, I s → ok s a → I (step s a)) (h : ∀ s a, I s → ok s a → ok' s a) {s : State} (hs : I s)
    {as : List Action} (hguarded : Guarded step ok s as) : Guarded step ok' s as := by
  induction hguarded with
  | nil s => exact .nil s
  | cons head tail ih => exact .cons (h _ _ hs head) (ih (hstep _ _ hs head))

theorem guarded_append {step : State → Action → State} {ok : State → Action → Prop} {s : State} {as bs : List Action} :
    Guarded step ok s (as ++ bs) ↔ Guarded step ok s as ∧ Guarded step ok (run step s as) bs := by
  induction as generalizing s with
  | nil => exact ⟨fun h => ⟨.nil s, h⟩, And.right⟩
  | cons a as ih =>
    constructor
    · rintro (_ | ⟨head, tail⟩)
      obtain ⟨htail, hrest⟩ := ih.mp tail
      exact ⟨.cons head htail, hrest⟩
    · rintro ⟨_ | ⟨head, tail⟩, hrest⟩
      exact .cons head (ih.mpr ⟨tail, hrest⟩)

theorem Guarded.and {step : State → Action → State} {ok ok' : State → Action → Prop} {s : State} {as : List Action}
    (h : Guarded step ok s as) (h' : Guarded step ok' s as) : Guarded step (fun s a => ok s a ∧ ok' s a) s as := by
  induction h with
  | nil s => exact .nil s
  | cons head tail ih =>
    cases h' with
    | cons head' tail' => exact .cons ⟨head, head'⟩ (ih tail')

/-- A condition on actions that says whether they keep a property is met along the runs that have it in every state.
-/
theorem guarded_iff_holds {step : State → Action → State} {ok : State → Action → Prop} {P : State → Prop}
    (hstep : ∀ s a, P s → (ok s a ↔ P (step s a))) {s : State} (hs : P s) (as : List Action) :
    Guarded step ok s as ↔ ∀ done rest, as = done ++ rest → P (run step s done) := by
  constructor
  · intro h done rest heq
    subst heq
    exact (guarded_append.mp h).1.invariant (fun s a hs hok => (hstep s a hs).mp hok) hs
  · intro h
    induction as generalizing s with
    | nil => exact .nil s
    | cons a as ih =>
      have hnext : P (step s a) := h [a] as rfl
      refine .cons ((hstep s a hs).mpr hnext) (ih hnext ?_)
      intro done rest heq
      exact h (a :: done) rest (by rw [heq, List.cons_append])

/-- Two conditions that an invariant makes the same, as long as they are met, hold along the same runs. -/
theorem guarded_iff {step : State → Action → State} {ok ok' : State → Action → Prop} {I : State → Prop}
    (hstep : ∀ s a, I s → ok s a → I (step s a)) (h : ∀ s a, I s → (ok s a ↔ ok' s a)) {s : State} (hs : I s) (as : List Action) :
    Guarded step ok s as ↔ Guarded step ok' s as := by
  induction as generalizing s with
  | nil => exact ⟨fun _ => .nil s, fun _ => .nil s⟩
  | cons a as ih =>
    constructor
    · rintro (_ | ⟨head, tail⟩)
      exact .cons ((h s a hs).mp head) ((ih (hstep s a hs head)).mp tail)
    · rintro (_ | ⟨head, tail⟩)
      have hok := (h s a hs).mpr head
      exact .cons hok ((ih (hstep s a hs hok)).mpr tail)

theorem guarded_congr {step : State → Action → State} {ok ok' : State → Action → Prop} {I : State → Prop}
    (hstep : ∀ s a, I s → I (step s a)) (h : ∀ s a, I s → (ok s a ↔ ok' s a)) {s : State} (hs : I s) (as : List Action) :
    Guarded step ok s as ↔ Guarded step ok' s as :=
  guarded_iff (fun s a hs _ => hstep s a hs) h hs as

instance Guarded.decidable (step : State → Action → State) (ok : State → Action → Prop)
    [∀ s a, Decidable (ok s a)] : ∀ (s : State) (as : List Action), Decidable (Guarded step ok s as)
  | s, [] => isTrue (.nil s)
  | s, a :: as =>
    match inferInstanceAs (Decidable (ok s a)), Guarded.decidable step ok (step s a) as with
    | isTrue head, isTrue tail => isTrue (.cons head tail)
    | isFalse head, _ => isFalse fun h => by cases h; contradiction
    | _, isFalse tail => isFalse fun h => by cases h; contradiction

section Outcomes

variable {Other : Type u} {Outcome : Type v} {perform : State → Action → Outcome × State}

def outcomes (perform : State → Action → Outcome × State) : State → List Action → List Outcome
  | _, [] => []
  | s, a :: as => (perform s a).1 :: outcomes perform (perform s a).2 as

theorem Guarded.outcomes_invariant {ok : State → Action → Prop} {I : List Outcome → State → Prop}
    (hstep : ∀ history s a, I history s → ok s a → I (history ++ [(perform s a).1]) (perform s a).2)
    {s : State} {as : List Action} (h : Guarded (fun s a => (perform s a).2) ok s as) {history : List Outcome}
    (hs : I history s) : I (history ++ outcomes perform s as) (run (fun s a => (perform s a).2) s as) := by
  induction h generalizing history with
  | nil s => simpa [outcomes] using hs
  | cons head tail ih => simpa [outcomes] using ih (hstep _ _ _ hs head)

theorem Guarded.outcomes_eq {other : Other → Action → Outcome × Other} {ok : State → Action → Prop}
    {R : State → Other → Prop}
    (hstep : ∀ s t a, R s t → ok s a → (perform s a).1 = (other t a).1 ∧ R (perform s a).2 (other t a).2)
    {s : State} {as : List Action} (h : Guarded (fun s a => (perform s a).2) ok s as) {t : Other} (hR : R s t) :
    outcomes perform s as = outcomes other t as := by
  induction h generalizing t with
  | nil s => rfl
  | cons head tail ih =>
    obtain ⟨hout, hnext⟩ := hstep _ _ _ hR head
    rw [outcomes, outcomes, hout, ih hnext]

end Outcomes

variable {Event : Type v} {step : State → List Event → State → Prop}

/-- A chain of steps, with the events of all of them. -/
inductive Path (step : State → List Event → State → Prop) : State → List Event → State → Prop where
  | nil (s : State) : Path step s [] s
  | cons {s s₁ s₂ : State} {es fs : List Event} (head : step s es s₁) (tail : Path step s₁ fs s₂) :
      Path step s (es ++ fs) s₂

namespace Path

theorem single {s s' : State} {es : List Event} (h : step s es s') : Path step s es s' := by
  simpa using Path.cons h (.nil s')

theorem trans {s s₁ s₂ : State} {es fs : List Event} (h : Path step s es s₁)
    (h' : Path step s₁ fs s₂) : Path step s (es ++ fs) s₂ := by
  induction h with
  | nil s => exact h'
  | cons head tail ih =>
    rw [List.append_assoc]
    exact .cons head (ih h')

theorem snoc {s s₁ s₂ : State} {es : List Event} (h : Path step s es s₁) (h' : step s₁ [] s₂) :
    Path step s es s₂ := by
  simpa using h.trans (single h')

theorem state_invariant {I : State → Prop} (hstep : ∀ s es s', I s → step s es s' → I s')
    {s s' : State} {es : List Event} (h : Path step s es s') (hs : I s) : I s' := by
  induction h with
  | nil s => exact hs
  | cons head tail ih => exact ih (hstep _ _ _ hs head)

end Path

theorem foldlM_invariant {Acc : Type u} {Row Err : Type v} {body : Acc → Row → Except Err Acc}
    {J : Acc → Prop} {rows : List Row} (hbody : ∀ a, ∀ r ∈ rows, ∀ a', J a → body a r = .ok a' → J a')
    {a a' : Acc} (ha : J a) (h : rows.foldlM body a = .ok a') : J a' := by
  induction rows generalizing a with
  | nil =>
    cases h
    exact ha
  | cons r rows ih =>
    rw [List.foldlM_cons] at h
    cases hr : body a r with
    | error e =>
      rw [hr] at h
      cases h
    | ok a₁ =>
      rw [hr] at h
      refine ih ?_ (hbody a r List.mem_cons_self a₁ ha hr) h
      intro b s hs b' hb hok
      exact hbody b s (List.mem_cons_of_mem r hs) b' hb hok

end OpenMinion.TransitionRuns
