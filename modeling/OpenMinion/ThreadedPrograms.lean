import OpenMinion.InterleavedThreads
import OpenMinion.StatementPrograms

/-!
# Threads that run programs

Every thread runs programs of statements on a shared state, one statement at a time. What a step
does is what one statement does, so conditions along a run are conditions on the statements that
are executed.
-/
namespace OpenMinion.ThreadedPrograms
open InterleavedThreads StatementPrograms TransitionRuns

universe u v w x y z
variable {Thread : Type u} {Shared : Type v} {Env : Type w} {Stmt : Type x} {Reply : Type y} {Op : Type z} {α : Type w}

def machine (exec : Shared → Env → Stmt → Shared × Reply) (program : Op → Program Stmt Reply α) :
    Threads Shared (Program Stmt Reply α) Op Env where
  isIdle p := match p with
    | .done _ => true
    | .step _ _ => false
  begin s op := (s, program op)
  next s p env := match p with
    | .done a => (s, .done a)
    | .step c next => ((exec s env c).1, next (exec s env c).2)

def AtStatement (ok : Shared → Env → Stmt → Prop) (σ : System Thread Shared (Program Stmt Reply α)) :
    Action Thread Op Env → Prop
  | .start _ _ => True
  | .advance t env => match σ.threads t with
    | .done _ => True
    | .step c _ => ok σ.shared env c

section Runs

variable [DecidableEq Thread] {exec : Shared → Env → Stmt → Shared × Reply} {program : Op → Program Stmt Reply α}
  {σ : System Thread Shared (Program Stmt Reply α)} {I : Shared → Prop} {ok ok' : Shared → Env → Stmt → Prop}

theorem atStatement_step {R : Shared → Shared → Prop} (hrefl : R σ.shared σ.shared) (action : Action Thread Op Env) :
    AtStatement (fun s env c => R s (exec s env c).1) σ action ↔ R σ.shared ((machine exec program).step σ action).shared := by
  cases action with
  | start t op =>
    rw [Threads.step]
    refine ⟨fun _ => ?_, fun _ => trivial⟩
    split <;> exact hrefl
  | advance t env =>
    rw [Threads.step, AtStatement]
    dsimp only [machine, shared_become]
    cases σ.threads t with
    | done a => exact ⟨fun _ => hrefl, fun _ => trivial⟩
    | step c next => rfl

theorem shared_step (hexec : ∀ s env c, I s → ok s env c → I (exec s env c).1) (action : Action Thread Op Env) (h : I σ.shared)
    (hok : AtStatement ok σ action) : I ((machine exec program).step σ action).shared := by
  cases action with
  | start t op =>
    rw [Threads.step]
    split <;> exact h
  | advance t env =>
    rw [AtStatement] at hok
    rw [Threads.step]
    dsimp only [machine, shared_become]
    cases hprogram : σ.threads t with
    | done a => exact h
    | step c next =>
      rw [hprogram] at hok
      exact hexec _ _ _ h hok

omit [DecidableEq Thread] in
theorem AtStatement.iff (hiff : ∀ env c, ok σ.shared env c ↔ ok' σ.shared env c) (action : Action Thread Op Env) :
    AtStatement ok σ action ↔ AtStatement ok' σ action := by
  cases action with
  | start t op => rfl
  | advance t env =>
    rw [AtStatement, AtStatement]
    cases σ.threads t with
    | done a => rfl
    | step c next => exact hiff env c

theorem shared_run (hexec : ∀ s env c, I s → ok s env c → I (exec s env c).1) (hσ : I σ.shared)
    {actions : List (Action Thread Op Env)} (h : Guarded (machine exec program).step (AtStatement ok) σ actions) :
    I (run (machine exec program).step σ actions).shared :=
  h.invariant (I := fun σ => I σ.shared) (fun _ action h hok => shared_step hexec action h hok) hσ

/-- Two conditions on statements that an invariant makes the same, as long as they are met, hold along the same runs. -/
theorem guarded_atStatement_iff (hexec : ∀ s env c, I s → ok s env c → I (exec s env c).1)
    (hiff : ∀ s env c, I s → (ok s env c ↔ ok' s env c)) (hσ : I σ.shared) (actions : List (Action Thread Op Env)) :
    Guarded (machine exec program).step (AtStatement ok) σ actions ↔
      Guarded (machine exec program).step (AtStatement ok') σ actions :=
  guarded_iff (I := fun σ => I σ.shared) (fun _ action h hok => shared_step hexec action h hok)
    (fun _ action h => AtStatement.iff (fun env c => hiff _ env c h) action) hσ actions

end Runs

end OpenMinion.ThreadedPrograms
