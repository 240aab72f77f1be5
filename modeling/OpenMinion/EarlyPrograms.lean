import OpenMinion.StatementPrograms

/-!
# Programs that may end early

Programs of separate statements with exceptions. What is shown of their results is shown of the
results they return; a program that has ended early has only to have executed permitted statements.
-/
namespace OpenMinion.EarlyPrograms
open StatementPrograms

universe u v w x
variable {Stmt : Type u} {Reply : Type v} {Error α β : Type w} {Ghost : Type x}

abbrev EarlyM (Stmt : Type u) (Reply : Type v) (Error α : Type w) := ExceptT Error (Program Stmt Reply) α

def ask (c : Stmt) (f : Reply → Except Error α) : EarlyM Stmt Reply Error α := ExceptT.mk (Program.perform c f)

variable (permits : Ghost → Stmt → Prop) (learn : Ghost → Stmt → Reply → Ghost)

/-- The statements are permitted, and what is returned is as claimed. -/
def Follows (Q : Ghost → α → Prop) (g : Ghost) (m : EarlyM Stmt Reply Error α) : Prop :=
  Program.Obeys permits learn (fun g r => ∀ a, r = Except.ok a → Q g a) g m.run

variable {permits learn} {g : Ghost}

theorem follows_pure {Q : Ghost → α → Prop} {a : α} (h : Q g a) :
    Follows permits learn Q g (pure a : EarlyM Stmt Reply Error α) := by
  rintro b hb
  cases hb
  exact h

theorem follows_throw {Q : Ghost → α → Prop} (e : Error) :
    Follows permits learn Q g (throw e : EarlyM Stmt Reply Error α) := by
  rintro b hb
  cases hb

theorem follows_ask {Q : Ghost → α → Prop} {c : Stmt} {f : Reply → Except Error α} (hpermits : permits g c)
    (h : ∀ r a, f r = .ok a → Q (learn g c r) a) : Follows permits learn Q g (ask c f) :=
  ⟨hpermits, fun r a ha => h r a ha⟩

theorem follows_lift {Q : Ghost → α → Prop} {p : Program Stmt Reply α} (h : Program.Obeys permits learn Q g p) :
    Follows permits learn Q g (ExceptT.lift p : EarlyM Stmt Reply Error α) := by
  refine Program.Obeys.bind h ?_
  rintro g' a ha b hb
  cases hb
  exact ha

theorem follows_except {Q : Ghost → α → Prop} {r : Except Error α} (h : ∀ a, r = .ok a → Q g a) :
    Follows permits learn Q g (ExceptT.mk (pure r) : EarlyM Stmt Reply Error α) := h

theorem Follows.bind {P : Ghost → α → Prop} {Q : Ghost → β → Prop} {m : EarlyM Stmt Reply Error α}
    {f : α → EarlyM Stmt Reply Error β} (hm : Follows permits learn P g m)
    (hf : ∀ g a, P g a → Follows permits learn Q g (f a)) : Follows permits learn Q g (m >>= f) := by
  refine Program.Obeys.bind hm ?_
  rintro g' (e | a) hP
  · rintro b hb
    cases hb
  · exact hf g' a (hP a rfl)

theorem Follows.then {Q : Ghost → β → Prop} {m : EarlyM Stmt Reply Error α} {f : α → EarlyM Stmt Reply Error β}
    (hm : Follows permits learn (fun g' _ => g' = g) g m) (hf : ∀ a, Follows permits learn Q g (f a)) :
    Follows permits learn Q g (m >>= f) := by
  refine hm.bind ?_
  rintro g' a rfl
  exact hf a

end OpenMinion.EarlyPrograms
