import Mathlib.Logic.Basic

/-!
# Programs of separate reads

A computation that looks at a shared state several times while other threads may change it. It is stable when its looks
give the same in all states that can follow; then its result does not depend on when they take place.
-/
namespace OpenMinion.ReadPrograms

universe u v w
variable {State : Type u} {α : Type v} {β : Type w}

inductive ReadProgram (State : Type u) (α : Type v) where
  | done (result : α)
  | read (next : State → ReadProgram State α)

namespace ReadProgram

def query (f : State → α) : ReadProgram State α := .read fun s => .done (f s)

def bind : ReadProgram State α → (α → ReadProgram State β) → ReadProgram State β
  | .done a, f => f a
  | .read next, f => .read fun s => (next s).bind f

def map (f : α → β) (p : ReadProgram State α) : ReadProgram State β := p.bind fun a => .done (f a)

def mapList (f : α → ReadProgram State β) : List α → ReadProgram State (List β)
  | [] => .done []
  | a :: as => (f a).bind fun b => (mapList f as).map (b :: ·)

def eval (s : State) : ReadProgram State α → α
  | .done a => a
  | .read next => eval s (next s)

@[simp] theorem eval_read (s : State) (next : State → ReadProgram State α) :
    eval s (.read next) = eval s (next s) := rfl

/-- In the states that can follow, the looks of the program give what they give now. -/
inductive Stable (R : State → State → Prop) : State → ReadProgram State α → Prop where
  | done (s : State) (a : α) : Stable R s (.done a)
  | read {s : State} {next : State → ReadProgram State α} (same : ∀ s', R s s' → next s' = next s)
      (rest : ∀ s', R s s' → Stable R s' (next s')) : Stable R s (.read next)

namespace Stable

variable {R : State → State → Prop} {s s' : State}

theorem query {f : State → α} (h : ∀ s', R s s' → f s' = f s) : Stable R s (ReadProgram.query f) := by
  refine .read ?_ (fun s' _ => .done s' _)
  intro s' hs
  rw [h s' hs]

theorem bind (htrans : ∀ a b c, R a b → R b c → R a c) {p : ReadProgram State α}
    {f : α → ReadProgram State β} (hp : Stable R s p) (hdone : Stable R s (f (eval s p)))
    (hf : ∀ s', R s s' → Stable R s' (f (eval s' p))) : Stable R s (p.bind f) := by
  induction hp with
  | done s a => exact hdone
  | @read s next same rest ih =>
    refine .read ?_ ?_
    · intro s' hs
      rw [same s' hs]
    · intro s' hs
      refine ih s' hs (hf s' hs) ?_
      intro s'' hs'
      have hlater := hf s'' (htrans _ _ _ hs hs')
      rw [eval_read, same s'' (htrans _ _ _ hs hs'), ← same s' hs] at hlater
      exact hlater

theorem map (htrans : ∀ a b c, R a b → R b c → R a c) {p : ReadProgram State α} (hp : Stable R s p)
    (f : α → β) : Stable R s (p.map f) :=
  hp.bind htrans (.done s _) fun s' _ => .done s' _

theorem mapList (htrans : ∀ a b c, R a b → R b c → R a c) {f : α → ReadProgram State β} {as : List α}
    (hnow : ∀ a ∈ as, Stable R s (f a)) (hlater : ∀ a ∈ as, ∀ s', R s s' → Stable R s' (f a)) :
    Stable R s (ReadProgram.mapList f as) := by
  induction as generalizing s with
  | nil => exact .done s []
  | cons a as ih =>
    have htail : ∀ {s₁}, (∀ c ∈ as, Stable R s₁ (f c)) → (∀ c ∈ as, ∀ s', R s₁ s' → Stable R s' (f c)) →
        ∀ b, Stable R s₁ ((ReadProgram.mapList f as).map (b :: ·)) := by
      intro s₁ hn hl b
      exact (ih hn hl).map htrans _
    refine (hnow a List.mem_cons_self).bind htrans ?_ ?_
    · apply htail
      · exact fun c hc => hnow c (List.mem_cons_of_mem a hc)
      · exact fun c hc => hlater c (List.mem_cons_of_mem a hc)
    · intro s' hs
      apply htail
      · exact fun c hc => hlater c (List.mem_cons_of_mem a hc) s' hs
      · exact fun c hc s'' hs' => hlater c (List.mem_cons_of_mem a hc) s'' (htrans _ _ _ hs hs')

theorem mono (htrans : ∀ a b c, R a b → R b c → R a c) {p : ReadProgram State α} (hp : Stable R s p)
    (hs : R s s') : Stable R s' p := by
  cases hp with
  | done _ a => exact .done s' a
  | @read _ next same rest =>
    refine .read ?_ ?_
    · intro s'' hs'
      rw [same s'' (htrans _ _ _ hs hs'), same s' hs]
    · exact fun s'' hs' => rest s'' (htrans _ _ _ hs hs')

theorem next {next : State → ReadProgram State α} (h : Stable R s (.read next)) (hs : R s s) :
    Stable R s (next s) := by
  cases h with
  | read same rest => exact rest s hs

theorem eval_eq {p : ReadProgram State α} (hp : Stable R s p) (hrefl : R s s) (hs : R s s') :
    eval s' p = eval s p := by
  induction hp with
  | done s a => rfl
  | @read s next same rest ih =>
    rw [eval_read, eval_read, same s' hs]
    exact ih s hrefl hrefl hs

end Stable

end ReadProgram

end OpenMinion.ReadPrograms
