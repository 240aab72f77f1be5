import Mathlib.Logic.Basic

/-!
# Programs of separate statements

A program works on a shared state by statements, each of which gives it a reply. Along it goes a ghost, what the thread
knows from its replies. `Obeys` says that the ghost permits every statement of the program.
-/
namespace OpenMinion.StatementPrograms

universe u v w
variable {Stmt : Type u} {Reply : Type v} {α β : Type w}

inductive Program (Stmt : Type u) (Reply : Type v) (α : Type w) where
  | done (result : α)
  | step (statement : Stmt) (next : Reply → Program Stmt Reply α)

namespace Program

def bind : Program Stmt Reply α → (α → Program Stmt Reply β) → Program Stmt Reply β
  | .done a, f => f a
  | .step c next, f => .step c fun r => (next r).bind f

instance : Monad (Program Stmt Reply) where
  pure := .done
  bind := bind

def perform (c : Stmt) (f : Reply → α) : Program Stmt Reply α := .step c fun r => .done (f r)

def mapList {γ : Type w} (f : γ → Program Stmt Reply β) : List γ → Program Stmt Reply (List β)
  | [] => .done []
  | a :: as => (f a).bind fun b => (mapList f as).bind fun bs => .done (b :: bs)

def foldList {γ : Type w} (f : β → γ → Program Stmt Reply β) : β → List γ → Program Stmt Reply β
  | b, [] => .done b
  | b, a :: as => (f b a).bind fun b => foldList f b as

section Obeys

universe x
variable {Ghost : Type x} (permits : Ghost → Stmt → Prop) (learn : Ghost → Stmt → Reply → Ghost)

def Obeys (Q : Ghost → α → Prop) : Ghost → Program Stmt Reply α → Prop
  | g, .done a => Q g a
  | g, .step c next => permits g c ∧ ∀ r, Obeys Q (learn g c r) (next r)

variable {permits learn} {g : Ghost}

theorem obeys_pure {Q : Ghost → α → Prop} {a : α} (h : Q g a) : Obeys permits learn Q g (pure a) := h

theorem obeys_perform {Q : Ghost → α → Prop} {c : Stmt} {f : Reply → α} (hpermits : permits g c) (h : ∀ r, Q (learn g c r) (f r)) :
    Obeys permits learn Q g (perform c f) := ⟨hpermits, h⟩

theorem Obeys.bind {P : Ghost → α → Prop} {Q : Ghost → β → Prop} {p : Program Stmt Reply α} {f : α → Program Stmt Reply β}
    (hp : Obeys permits learn P g p) (hf : ∀ g a, P g a → Obeys permits learn Q g (f a)) : Obeys permits learn Q g (p >>= f) := by
  induction p generalizing g with
  | done a => exact hf g a hp
  | step c next ih => exact ⟨hp.1, fun r => ih r (hp.2 r)⟩

theorem Obeys.mono {P Q : Ghost → α → Prop} {p : Program Stmt Reply α} (hp : Obeys permits learn P g p) (h : ∀ g a, P g a → Q g a) :
    Obeys permits learn Q g p := by
  induction p generalizing g with
  | done a => exact h g a hp
  | step c next ih => exact ⟨hp.1, fun r => ih r (hp.2 r)⟩

theorem obeys_mapList {γ : Type w} {K : Ghost → Prop} {f : γ → Program Stmt Reply β} {as : List γ}
    (hf : ∀ a ∈ as, ∀ g, K g → Obeys permits learn (fun g _ => K g) g (f a)) (hg : K g) :
    Obeys permits learn (fun g _ => K g) g (mapList f as) := by
  induction as generalizing g with
  | nil => exact hg
  | cons a as ih =>
    refine Obeys.bind (hf a List.mem_cons_self g hg) ?_
    intro g' b hg'
    refine Obeys.bind (ih (fun c hc => hf c (List.mem_cons_of_mem a hc)) hg') ?_
    intro g'' bs hg''
    exact hg''

theorem obeys_foldList {γ : Type w} {K : Ghost → Prop} {f : β → γ → Program Stmt Reply β} {as : List γ}
    (hf : ∀ a ∈ as, ∀ b g, K g → Obeys permits learn (fun g _ => K g) g (f b a)) (hg : K g) (b : β) :
    Obeys permits learn (fun g _ => K g) g (foldList f b as) := by
  induction as generalizing g b with
  | nil => exact hg
  | cons a as ih =>
    refine Obeys.bind (hf a List.mem_cons_self b g hg) ?_
    intro g' b' hg'
    exact ih (fun c hc => hf c (List.mem_cons_of_mem a hc)) hg' b'

end Obeys

end Program

end OpenMinion.StatementPrograms
