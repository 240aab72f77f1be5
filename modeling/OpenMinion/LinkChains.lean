import Mathlib.Logic.Relation

/-!
# Chains of links

A relation that links things to others, and its chains. No chain returns to its start as long
as a new link does not close one: the thing that it leads to does not lead back.
-/
namespace OpenMinion.LinkChains
open Relation

universe u
variable {α : Type u} {R R' : α → α → Prop} {a b : α}

def Acyclic (R : α → α → Prop) : Prop := ∀ a, ¬ TransGen R a a

theorem Acyclic.mono (h : Acyclic R) (hsub : ∀ a b, R' a b → R a b) : Acyclic R' :=
  fun a hcycle => h a (TransGen.mono hsub a a hcycle)

theorem transGen_of_redirect {x y : α} (hsub : ∀ c d, R' c d → R c d ∨ (c = a ∧ d = b)) (hback : ¬ ReflTransGen R b a)
    (h : TransGen R' x y) : TransGen R x y ∨ (ReflTransGen R x a ∧ ReflTransGen R b y) := by
  induction h with
  | single hlink =>
    obtain hold | ⟨rfl, rfl⟩ := hsub _ _ hlink
    · exact .inl (.single hold)
    · exact .inr ⟨.refl, .refl⟩
  | tail _ hlink ih =>
    obtain hold | ⟨rfl, rfl⟩ := hsub _ _ hlink
    · obtain hchain | ⟨hto, hfrom⟩ := ih
      · exact .inl (hchain.tail hold)
      · exact .inr ⟨hto, hfrom.tail hold⟩
    · obtain hchain | ⟨-, hfrom⟩ := ih
      · exact .inr ⟨hchain.to_reflTransGen, .refl⟩
      · exact absurd hfrom hback

theorem Acyclic.redirect (h : Acyclic R) (hsub : ∀ c d, R' c d → R c d ∨ (c = a ∧ d = b)) (hback : ¬ ReflTransGen R b a) :
    Acyclic R' := by
  intro x hcycle
  obtain hchain | ⟨hto, hfrom⟩ := transGen_of_redirect hsub hback hcycle
  · exact h x hchain
  · exact hback (hfrom.trans hto)

theorem not_acyclic_of_redirect (hkeep : ∀ c d, c ≠ a → R c d → R' c d) (hnew : R' a b) (hback : ReflTransGen R b a) :
    ¬ Acyclic R' := by
  have hchain : ReflTransGen R' b a := by
    clear hnew
    induction hback using ReflTransGen.head_induction_on with
    | refl => exact .refl
    | @head c d hlink _ ih =>
      by_cases hc : c = a
      · rw [hc]
      · exact .head (hkeep c d hc hlink) ih
  intro h
  exact h a (.head' hnew hchain)

theorem Acyclic.sink (h : Acyclic R) (hsub : ∀ c d, R' c d → R c d ∨ d = a) (hsink : ∀ d, ¬ R' a d) : Acyclic R' := by
  have hchain : ∀ x y, TransGen R' x y → y ≠ a → TransGen R x y := by
    intro x y hxy
    induction hxy with
    | single hlink =>
      intro hne
      exact .single ((hsub _ _ hlink).resolve_right hne)
    | @tail c d _ hlink ih =>
      intro hne
      have hmid : c ≠ a := by
        rintro rfl
        exact hsink d hlink
      exact (ih hmid).tail ((hsub _ _ hlink).resolve_right hne)
  intro x hcycle
  by_cases hx : x = a
  · obtain ⟨d, hlink, -⟩ := TransGen.head'_iff.mp hcycle
    exact hsink d (hx ▸ hlink)
  · exact h x (hchain x x hcycle hx)

end OpenMinion.LinkChains
