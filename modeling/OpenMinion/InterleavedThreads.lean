import Mathlib.Logic.Function.Iterate
import OpenMinion.TransitionRuns

/-!
# Interleaved threads

Threads that share a state and take their steps one by one. What is asserted of the state and of the place of each
thread holds in every run when a step establishes it for its thread and keeps it for all others.
-/
namespace OpenMinion.InterleavedThreads
open TransitionRuns

universe u v w x y z
variable {Thread : Type u} {Shared : Type v} {Local : Type w} {Op : Type x} {Choice : Type y}

/-- What threads do. Starting an operation may already be a step on the shared state; the
outcome of a step may depend on a choice of the environment. -/
structure Threads (Shared : Type v) (Local : Type w) (Op : Type x) (Choice : Type y) where
  isIdle : Local → Bool
  begin : Shared → Op → Shared × Local
  next : Shared → Local → Choice → Shared × Local

structure System (Thread : Type u) (Shared : Type v) (Local : Type w) where
  shared : Shared
  threads : Thread → Local

inductive Action (Thread : Type u) (Op : Type x) (Choice : Type y) where
  | start (t : Thread) (op : Op)
  | advance (t : Thread) (choice : Choice)

/-- An invariant of the shared state, and what is asserted of it at the place of each thread. -/
structure Annotated (I : Shared → Prop) (J : Shared → Local → Prop) (σ : System Thread Shared Local) : Prop where
  shared : I σ.shared
  threads : ∀ t, J σ.shared (σ.threads t)

/-- A step keeps the invariant, establishes the assertion of its thread and keeps those of
the other threads. -/
structure Keeps (I : Shared → Prop) (J : Shared → Local → Prop) (σ : System Thread Shared Local) (t : Thread)
    (r : Shared × Local) : Prop where
  shared : I r.1
  own : J r.1 r.2
  others : ∀ t', t' ≠ t → J r.1 (σ.threads t')

variable {I : Shared → Prop} {J : Shared → Local → Prop} {σ : System Thread Shared Local}

theorem Annotated.move (h : Annotated I J σ) {t : Thread} {l : Local} (hown : J σ.shared l) :
    Keeps I J σ t (σ.shared, l) :=
  ⟨h.shared, hown, fun t' _ => h.threads t'⟩

variable [DecidableEq Thread]

def System.become (σ : System Thread Shared Local) (t : Thread) (r : Shared × Local) : System Thread Shared Local :=
  ⟨r.1, Function.update σ.threads t r.2⟩

def Threads.step (P : Threads Shared Local Op Choice) (σ : System Thread Shared Local) :
    Action Thread Op Choice → System Thread Shared Local
  | .start t op => if P.isIdle (σ.threads t) then σ.become t (P.begin σ.shared op) else σ
  | .advance t choice => σ.become t (P.next σ.shared (σ.threads t) choice)

section Become

variable {σ : System Thread Shared Local} {t : Thread} {r : Shared × Local}

@[simp] theorem shared_become : (σ.become t r).shared = r.1 := rfl

@[simp] theorem threads_become (t' : Thread) : (σ.become t r).threads t' = if t' = t then r.2 else σ.threads t' :=
  Function.update_apply _ _ _ _

@[simp] theorem become_become (r' : Shared × Local) : (σ.become t r).become t r' = σ.become t r' := by
  simp [System.become]

end Become

theorem run_advance (P : Threads Shared Local Op Choice) (σ : System Thread Shared Local) (t : Thread) (choice : Choice)
    (n : ℕ) : run P.step σ (List.replicate n (.advance t choice)) =
      σ.become t ((fun r => P.next r.1 r.2 choice)^[n] (σ.shared, σ.threads t)) := by
  induction n generalizing σ with
  | zero => simp [System.become]
  | succ n ih =>
    rw [List.replicate_succ, run_cons, ih, Function.iterate_succ_apply]
    simp [Threads.step]

theorem Keeps.annotated {t : Thread} {r : Shared × Local} (h : Keeps I J σ t r) : Annotated I J (σ.become t r) := by
  refine ⟨h.shared, fun t' => ?_⟩
  rw [threads_become]
  by_cases ht : t' = t
  · rw [if_pos ht]
    exact h.own
  · rw [if_neg ht]
    exact h.others t' ht

def Exclusive {Resource : Type z} (holds : Local → Option Resource) (σ : System Thread Shared Local) : Prop :=
  ∀ t t' r, holds (σ.threads t) = some r → holds (σ.threads t') = some r → t = t'

theorem Exclusive.become {Resource : Type z} {holds : Local → Option Resource} (h : Exclusive holds σ) {t : Thread}
    {r : Shared × Local}
    (hown : ∀ x, holds r.2 = some x → holds (σ.threads t) = some x ∨ ∀ t', t' ≠ t → holds (σ.threads t') ≠ some x) :
    Exclusive holds (σ.become t r) := by
  intro t₁ t₂ x h₁ h₂
  rw [threads_become] at h₁ h₂
  by_cases ht₁ : t₁ = t
  · by_cases ht₂ : t₂ = t
    · exact ht₁.trans ht₂.symm
    · rw [if_pos ht₁] at h₁
      rw [if_neg ht₂] at h₂
      rcases hown x h₁ with hheld | hfree
      · exact ht₁.trans (h t t₂ x hheld h₂)
      · exact absurd h₂ (hfree t₂ ht₂)
  · rw [if_neg ht₁] at h₁
    by_cases ht₂ : t₂ = t
    · rw [if_pos ht₂] at h₂
      rcases hown x h₂ with hheld | hfree
      · exact (h t₁ t x h₁ hheld).trans ht₂.symm
      · exact absurd h₁ (hfree t₁ ht₁)
    · rw [if_neg ht₂] at h₂
      exact h t₁ t₂ x h₁ h₂

theorem annotated_run {P : Threads Shared Local Op Choice}
    {ok : System Thread Shared Local → Action Thread Op Choice → Prop}
    (hbegin : ∀ σ t op, Annotated I J σ → ok σ (.start t op) → P.isIdle (σ.threads t) = true →
      Keeps I J σ t (P.begin σ.shared op))
    (hnext : ∀ σ t choice, Annotated I J σ → ok σ (.advance t choice) →
      Keeps I J σ t (P.next σ.shared (σ.threads t) choice))
    (hσ : Annotated I J σ) {as : List (Action Thread Op Choice)} (h : Guarded P.step ok σ as) :
    Annotated I J (run P.step σ as) := by
  refine h.invariant ?_ hσ
  intro σ a hσ hok
  cases a with
  | start t op =>
    rw [Threads.step]
    split
    · next hidle => exact (hbegin σ t op hσ hok hidle).annotated
    · exact hσ
  | advance t choice => exact (hnext σ t choice hσ hok).annotated

end OpenMinion.InterleavedThreads
