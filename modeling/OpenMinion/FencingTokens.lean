import Mathlib.Order.Lattice
import Mathlib.Logic.Function.Basic
import Mathlib.Order.Basic

/-!
# Fencing tokens

A lease service keeps at most one fence per resource. `FenceStep` says what one operation may do to the fences and
which events its caller observes; `Explains` relates the fences to the history of these events.
-/
namespace OpenMinion.FencingTokens

universe u v
variable {Resource : Type u} {Token : Type v}

structure Fence (Token : Type v) where
  token : Token
  released : Bool
  deriving DecidableEq

inductive LeaseEvent (Resource : Type u) (Token : Type v) where
  | granted (resource : Resource) (token : Token)
  | released (resource : Resource) (token : Token)
  deriving DecidableEq

def LeaseEvent.resource : LeaseEvent Resource Token → Resource
  | .granted r _ => r
  | .released r _ => r

def held (token : Token) : Option (Fence Token) := some ⟨token, false⟩

/-- One operation of a lease service. -/
inductive FenceStep [DecidableEq Resource] [LT Token] (fences : Resource → Option (Fence Token)) :
    List (LeaseEvent Resource Token) → (Resource → Option (Fence Token)) → Prop where
  | silent : FenceStep fences [] fences
  | extended {r : Resource} {t : Token} (current : fences r = held t) :
      FenceStep fences [.granted r t] fences
  | granted {r : Resource} {t : Token} (fresh : ∀ f ∈ fences r, f.token < t) :
      FenceStep fences [.granted r t] (Function.update fences r (held t))
  | released {r : Resource} {t : Token} (current : fences r = held t) :
      FenceStep fences [.released r t] (Function.update fences r (some ⟨t, true⟩))

theorem FenceStep.frame [DecidableEq Resource] [LT Token] {fences fences' : Resource → Option (Fence Token)}
    {events : List (LeaseEvent Resource Token)} (h : FenceStep fences events fences') {r : Resource}
    (hr : ∀ e ∈ events, e.resource ≠ r) : fences' r = fences r := by
  cases h with
  | silent => rfl
  | extended current => rfl
  | granted fresh => exact Function.update_of_ne (hr _ List.mem_cons_self).symm _ _
  | released current => exact Function.update_of_ne (hr _ List.mem_cons_self).symm _ _

variable [LinearOrder Token]

/-- The grant with this token ended: a later one was granted, or it was released. -/
def Ended (history : List (LeaseEvent Resource Token)) (r : Resource) (t : Token) : Prop :=
  (∃ t', t < t' ∧ .granted r t' ∈ history) ∨ .released r t ∈ history

/-- Every event of the history is visible in the fences. -/
structure Explains (fences : Resource → Option (Fence Token))
    (history : List (LeaseEvent Resource Token)) : Prop where
  granted : ∀ r t, .granted r t ∈ history → ∃ f ∈ fences r, t ≤ f.token
  released : ∀ r t, .released r t ∈ history →
    ∃ f ∈ fences r, t < f.token ∨ f = ⟨t, true⟩

namespace Explains

variable {fences fences' : Resource → Option (Fence Token)}
  {history events : List (LeaseEvent Resource Token)}

theorem nil (fences : Resource → Option (Fence Token)) : Explains fences [] :=
  ⟨fun _ _ h => absurd h List.not_mem_nil, fun _ _ h => absurd h List.not_mem_nil⟩

theorem ne_held (h : Explains fences history) {r : Resource} {t : Token} (hend : Ended history r t) :
    fences r ≠ held t := by
  intro heq
  rcases hend with ⟨t', hlt, hmem⟩ | hmem
  · obtain ⟨f, hf, hle⟩ := h.granted r t' hmem
    obtain rfl : ⟨t, false⟩ = f := by simpa [heq, held] using hf
    exact absurd hle (not_le.mpr hlt)
  · obtain ⟨f, hf, hor⟩ := h.released r t hmem
    obtain rfl : ⟨t, false⟩ = f := by simpa [heq, held] using hf
    rcases hor with hlt | heq
    · exact absurd hlt (lt_irrefl t)
    · cases heq

theorem lt_of_fresh (h : Explains fences history) {r : Resource} {t t' : Token}
    (fresh : ∀ f ∈ fences r, f.token < t) (hmem : .granted r t' ∈ history) : t' < t := by
  obtain ⟨f, hf, hle⟩ := h.granted r t' hmem
  exact lt_of_le_of_lt hle (fresh f hf)

private theorem append_granted (h : Explains fences history) {r : Resource} {t : Token}
    (hr : fences r = held t) : Explains fences (history ++ [.granted r t]) := by
  constructor
  · intro r' t' hmem
    rcases List.mem_append.mp hmem with hmem | hmem
    · exact h.granted r' t' hmem
    · obtain ⟨rfl, rfl⟩ : r' = r ∧ t' = t := by simpa using hmem
      exact ⟨⟨t', false⟩, hr, le_refl _⟩
  · intro r' t' hmem
    exact h.released r' t' (by simpa using hmem)

private theorem append_released (h : Explains fences history) {r : Resource} {t : Token}
    (hr : fences r = some ⟨t, true⟩) : Explains fences (history ++ [.released r t]) := by
  constructor
  · intro r' t' hmem
    exact h.granted r' t' (by simpa using hmem)
  · intro r' t' hmem
    rcases List.mem_append.mp hmem with hmem | hmem
    · exact h.released r' t' hmem
    · obtain ⟨rfl, rfl⟩ : r' = r ∧ t' = t := by simpa using hmem
      exact ⟨⟨t', true⟩, hr, .inr rfl⟩

variable [DecidableEq Resource]

private theorem update (h : Explains fences history) {r : Resource} {f : Fence Token}
    (hf : ∀ g ∈ fences r, g.token < f.token ∨ g = f ∨ g.token = f.token ∧ f.released = true) :
    Explains (Function.update fences r (some f)) history := by
  constructor
  · intro r' t hmem
    obtain ⟨g, hg, hle⟩ := h.granted r' t hmem
    by_cases hr : r' = r
    · subst hr
      refine ⟨f, by simp, ?_⟩
      rcases hf g hg with hlt | rfl | ⟨heq, -⟩
      · exact hle.trans hlt.le
      · exact hle
      · exact hle.trans heq.le
    · exact ⟨g, by simpa [hr] using hg, hle⟩
  · intro r' t hmem
    obtain ⟨g, hg, hor⟩ := h.released r' t hmem
    by_cases hr : r' = r
    · subst hr
      refine ⟨f, by simp, ?_⟩
      rcases hf g hg, hor with ⟨hlt | rfl | ⟨heq, hrel⟩, hlt' | rfl⟩
      · exact .inl (hlt'.trans hlt)
      · exact .inl hlt
      · exact .inl hlt'
      · exact .inr rfl
      · exact .inl (heq ▸ hlt')
      · obtain ⟨token, released⟩ := f
        exact .inr (by simp_all)
    · exact ⟨g, by simpa [hr] using hg, hor⟩

theorem step (h : Explains fences history) (hstep : FenceStep fences events fences') :
    Explains fences' (history ++ events) := by
  cases hstep with
  | silent => simpa using h
  | extended current => exact h.append_granted current
  | granted fresh =>
    refine append_granted (h.update fun g hg => .inl (fresh g hg)) ?_
    simp [held]
  | released current =>
    refine append_released (h.update ?_) (by simp)
    intro g hg
    obtain rfl : _ = g := by simpa [current, held] using hg
    exact .inr (.inr ⟨rfl, rfl⟩)

end Explains
end OpenMinion.FencingTokens
