import OpenMinion.TaskPrograms

/-!
# States of tasks

A task that is cancelled, done or failed stays so as long as no `transition` writes to a task that another thread has
ended since its record was read.
-/
namespace OpenMinion.TaskStates
open InterleavedThreads JsonValues KeyedTables StatementPrograms TaskPrograms TaskRecords
  ThreadedPrograms TransitionRuns

def stateOf (db : LifecycleDb) (taskId : String) : Option TaskState := (db.get taskId).map (·.state)

/-- A state is kept, or left for one that is allowed from it; a task is never removed. -/
def StateStep : Option TaskState → Option TaskState → Prop
  | none, _ => True
  | some state, some state' => state' = state ∨ state' ∈ state.allowed
  | some _, none => False

def StatesStep (db db' : LifecycleDb) : Prop := ∀ taskId, StateStep (stateOf db taskId) (stateOf db' taskId)

def FindsOpen (s : Shared) (env : Env) : Stmt → Prop
  | .transition record toState _ =>
    env.fails = false → ∀ row ∈ s.db.get record.taskId, row.state.isTerminal = true → row.state = toState
  | _ => True

theorem stateStep_some {state state' : TaskState} : StateStep (some state) (some state') ↔ (state.isTerminal = true → state' = state) := by
  constructor
  · rintro (heq | hmem) hterminal
    · exact heq
    · rw [TaskState.allowed_of_isTerminal hterminal] at hmem
      cases hmem
  · intro h
    by_cases hne : state' = state
    · exact .inl hne
    · cases hterminal : state.isTerminal with
      | true => exact absurd (h hterminal) hne
      | false => exact .inr (TaskState.mem_allowed_of_open hterminal hne)

theorem stateStep_refl (state : Option TaskState) : StateStep state state := by
  cases state with
  | none => trivial
  | some state => exact .inl rfl

theorem StateStep.trans {a b c : Option TaskState} (h : StateStep a b) (h' : StateStep b c) : StateStep a c := by
  cases a with
  | none => trivial
  | some a =>
    cases b with
    | none => exact h.elim
    | some b =>
      cases c with
      | none => exact h'.elim
      | some c =>
        rw [stateStep_some] at h h' ⊢
        intro hterminal
        obtain rfl := h hterminal
        exact h' hterminal

theorem statesStep_refl (db : LifecycleDb) : StatesStep db db := fun _ => stateStep_refl _

section Writes

variable {db : LifecycleDb}

theorem stateOf_updateTasks {p : TaskRecord → Bool} {f : TaskRecord → TaskRecord} (hid : ∀ row, p row = true → (f row).taskId = row.taskId)
    (taskId : String) : stateOf (db.updateTasks p f) taskId =
      (db.get taskId).map fun row => if p row then (f row).state else row.state := by
  rw [stateOf, LifecycleDb.get_updateTasks hid, Option.map_map]
  congr 1
  funext row
  exact apply_ite TaskRecord.state _ _ _

theorem statesStep_updateTasks {p : TaskRecord → Bool} {f : TaskRecord → TaskRecord}
    (hid : ∀ row, p row = true → (f row).taskId = row.taskId)
    (h : ∀ taskId, ∀ row ∈ db.get taskId, p row = true → row.state.isTerminal = true → (f row).state = row.state) :
    StatesStep db (db.updateTasks p f) := by
  intro taskId
  rw [stateOf_updateTasks hid, stateOf]
  cases hget : db.get taskId with
  | none => trivial
  | some row =>
    rw [Option.map_some, Option.map_some, stateStep_some]
    intro hterminal
    split
    · next hp => exact h taskId row hget hp hterminal
    · rfl

theorem statesStep_create {record : TaskRecord} {db' : LifecycleDb} (h : db.create record = some db') : StatesStep db db' := by
  rw [LifecycleDb.create] at h
  split at h
  · cases h
  · cases h
    intro taskId
    rw [stateOf, stateOf, LifecycleDb.get, LifecycleDb.get, lookup, lookup, List.find?_append]
    cases db.tasks.find? fun row => row.taskId = taskId with
    | none => trivial
    | some row => exact stateStep_refl _

theorem statesStep_updateMetadata (taskId : String) (metadata : Dict) (now : String) :
    StatesStep db (db.updateMetadata taskId metadata now) :=
  statesStep_updateTasks (fun _ _ => rfl) fun _ _ _ _ _ => rfl

theorem statesStep_recordScheduledOutcome {record : TaskRecord} {expected toState : TaskState}
    (h : toState = expected ∨ toState ∈ expected.allowed) (metadata : Dict) (failureReason : Option String) (now : String) :
    StatesStep db (db.recordScheduledOutcome record expected toState metadata failureReason now) := by
  refine statesStep_updateTasks (fun _ _ => rfl) ?_
  intro taskId row _ hp hterminal
  rw [Bool.and_eq_true, decide_eq_true_eq, decide_eq_true_eq] at hp
  rw [hp.2] at hterminal ⊢
  exact stateStep_some.mp h hterminal

theorem statesStep_cascade (projectTaskId now : String) :
    StatesStep db (db.updateTasks (TaskRecord.isOpenMode projectTaskId) (TaskRecord.cancelledMode now)) := by
  refine statesStep_updateTasks (fun _ _ => rfl) ?_
  intro taskId row _ hp hterminal
  simp [TaskRecord.isOpenMode, hterminal] at hp

theorem stateOf_transition {record row : TaskRecord} (hrow : db.get record.taskId = some row) (toState : TaskState)
    (failureReason : Option String) (now : String) :
    stateOf (db.transition record toState failureReason now) record.taskId = some toState := by
  have hid : row.taskId = record.taskId := (lookup_some hrow).2
  have hupdate : stateOf (db.updateTasks (fun row => row.taskId = record.taskId)
      (record.transitioned toState failureReason now)) record.taskId = some toState := by
    refine (stateOf_updateTasks (by exact fun _ _ => rfl) record.taskId).trans ?_
    rw [hrow, Option.map_some, if_pos (decide_eq_true hid)]
    rfl
  rw [LifecycleDb.transition]
  split
  · next hcascade =>
    -- The cascade selects open tasks alone.
    rw [Bool.and_eq_true] at hcascade
    obtain ⟨changed, hchanged, hstate⟩ := Option.map_eq_some_iff.mp hupdate
    have hclosed : TaskRecord.isOpenMode record.taskId changed = false := by
      simp [TaskRecord.isOpenMode, hstate, hcascade.1]
    refine (stateOf_updateTasks (by exact fun _ _ => rfl) record.taskId).trans ?_
    rw [hchanged, Option.map_some, hclosed]
    exact congrArg some hstate
  · exact hupdate

/-- A transition steps the states exactly when it finds its task open or in the state that it writes. -/
theorem statesStep_transition (record : TaskRecord) (toState : TaskState) (failureReason : Option String) (now : String) :
    StatesStep db (db.transition record toState failureReason now) ↔
      ∀ row ∈ db.get record.taskId, row.state.isTerminal = true → row.state = toState := by
  constructor
  · intro h row hrow hterminal
    have htask := h record.taskId
    rw [stateOf_transition hrow, stateOf, Option.mem_def.mp hrow, Option.map_some, stateStep_some] at htask
    exact (htask hterminal).symm
  · intro h
    have hupdate : StatesStep db (db.updateTasks (fun row => row.taskId = record.taskId)
        (record.transitioned toState failureReason now)) := by
      refine statesStep_updateTasks (fun _ _ => rfl) ?_
      intro taskId row hrow hp hterminal
      have hid : taskId = record.taskId := (lookup_some hrow).2.symm.trans (of_decide_eq_true hp)
      rw [hid] at hrow
      exact (h row hrow hterminal).symm
    rw [LifecycleDb.transition]
    split
    · exact fun taskId => (hupdate taskId).trans (statesStep_cascade record.taskId now taskId)
    · exact hupdate

theorem statesStep_writeDb {env : Env} {c : Stmt} (hne : ∀ record toState reason, c ≠ .transition record toState reason)
    {db' : LifecycleDb} (h : c.writeDb env db = some db') : StatesStep db db' := by
  cases c with
  | transition record toState reason => exact absurd rfl (hne record toState reason)
  | recordScheduledOutcome record change found metadata failureReason =>
    cases h
    exact statesStep_recordScheduledOutcome change.valid metadata failureReason _
  | create record => exact statesStep_create h
  | updateMetadata taskId found metadata =>
    cases h
    exact statesStep_updateMetadata taskId metadata _
  | mutateMetadata taskId mutate =>
    obtain ⟨row, -, hrow⟩ := Option.bind_eq_some_iff.mp h
    obtain ⟨metadata, -, rfl⟩ := Option.map_eq_some_iff.mp hrow
    exact statesStep_updateMetadata taskId metadata _
  | commitCheckpoint claim checkpointId state committedAt =>
    rw [Stmt.writeDb, LifecycleDb.commitCheckpoint] at h
    split at h
    · cases h
    · obtain ⟨row, -, rfl⟩ := Option.map_eq_some_iff.mp h
      exact statesStep_updateMetadata claim.taskId _ _
  | look | putClaim | expireClaim | setCronJobEnabled | replaceCronJobPayload | deleteCronJob | cronChange =>
    cases h
    exact statesStep_refl _

theorem statesStep_exec (s : Shared) (env : Env) (c : Stmt) :
    StatesStep s.db (exec s env c).1.db ↔ FindsOpen s env c := by
  rw [exec_db]
  cases hfails : env.fails with
  | true =>
    refine ⟨fun _ => ?_, fun _ => statesStep_refl _⟩
    cases c with
    | transition => exact fun h => absurd (hfails.symm.trans h) (by decide)
    | _ => trivial
  | false =>
    by_cases hne : ∀ record toState reason, c ≠ .transition record toState reason
    · constructor
      · intro _
        cases c with
        | transition record toState reason => exact absurd rfl (hne record toState reason)
        | _ => trivial
      · intro _
        rw [if_neg Bool.false_ne_true]
        cases hwrite : c.writeDb env s.db with
        | none => exact statesStep_refl _
        | some db' => exact statesStep_writeDb hne hwrite
    · push Not at hne
      obtain ⟨record, toState, reason, rfl⟩ := hne
      exact (statesStep_transition record toState reason _).trans ⟨fun h _ => h, fun h => h hfails⟩

end Writes

section Runs

variable (lib : TaskLibrary) {Thread : Type} [DecidableEq Thread]

/-- Every change of a stored state in a step is an allowed transition. -/
def KeepsTransitions (σ : System Thread Shared Prog) (action : Action Thread Op Env) : Prop :=
  StatesStep σ.shared.db ((threads lib).step σ action).shared.db

theorem keepsTransitions_iff (σ : System Thread Shared Prog) (action : Action Thread Op Env) :
    KeepsTransitions lib σ action ↔ AtStatement FindsOpen σ action := by
  have hstep : AtStatement (fun s env c => StatesStep s.db (exec s env c).1.db) σ action ↔ KeepsTransitions lib σ action :=
    atStatement_step (R := fun s s' : Shared => StatesStep s.db s'.db) (statesStep_refl _) action
  exact hstep.symm.trans (AtStatement.iff (fun env c => statesStep_exec _ env c) action)

theorem guarded_keepsTransitions_iff (σ : System Thread Shared Prog) (actions : List (Action Thread Op Env)) :
    Guarded (threads lib).step (KeepsTransitions lib) σ actions ↔ Guarded (threads lib).step (AtStatement FindsOpen) σ actions :=
  guarded_congr (I := fun _ => True) (fun _ _ _ => trivial) (fun σ action _ => keepsTransitions_iff lib σ action) trivial actions

theorem statesStep_run {σ : System Thread Shared Prog} {actions : List (Action Thread Op Env)}
    (h : Guarded (threads lib).step (KeepsTransitions lib) σ actions) :
    StatesStep σ.shared.db (run (threads lib).step σ actions).shared.db := by
  induction h with
  | nil σ => exact statesStep_refl _
  | cons head tail ih => exact fun taskId => (head taskId).trans (ih taskId)

/-- **Terminal states are absorbing while transitions find their tasks open.** -/
theorem states_step_iff (lib : TaskLibrary) (Thread : Type) [DecidableEq Thread] (db : LifecycleDb) (jobs : List CronJob)
    (actions : List (Action Thread Op Env)) :
    (Guarded (threads lib).step (KeepsTransitions lib) (initial Thread db jobs) actions ↔
      Guarded (threads lib).step (AtStatement FindsOpen) (initial Thread db jobs) actions) ∧
    (Guarded (threads lib).step (AtStatement FindsOpen) (initial Thread db jobs) actions →
      ∀ earlier later, actions = earlier ++ later → ∀ taskId state, state.isTerminal = true →
        stateOf (run (threads lib).step (initial Thread db jobs) earlier).shared.db taskId = some state →
        stateOf (run (threads lib).step (initial Thread db jobs) actions).shared.db taskId = some state) := by
  have hiff := guarded_keepsTransitions_iff lib (initial Thread db jobs) actions
  refine ⟨hiff, ?_⟩
  rintro hfinds earlier later rfl taskId state hterminal hstate
  have hlater := statesStep_run lib (guarded_append.mp (hiff.mpr hfinds)).2 taskId
  rw [hstate, ← run_append] at hlater
  cases hend : stateOf (run (threads lib).step (initial Thread db jobs) (earlier ++ later)).shared.db taskId with
  | none =>
    rw [hend] at hlater
    exact hlater.elim
  | some state' =>
    rw [hend, stateStep_some] at hlater
    rw [hlater hterminal]

def cancelledMeanwhile : List (Action Bool Op Env) :=
  [.start false (.transitionTask "task" .paused none), .advance false (.atMicros 0 IsoTimestamps.zero_lt_endOfTime), .start true (.transitionTask "task" .cancelled none),
    .advance true (.atMicros 0 IsoTimestamps.zero_lt_endOfTime), .advance true (.atMicros 0 IsoTimestamps.zero_lt_endOfTime)]

/-- The cancelled task is paused. -/
theorem cancelled_task_paused :
    ¬ ∀ actions : List (Action Bool Op Env),
      Guarded (threads .plain).step (KeepsTransitions .plain) (initial Bool { tasks := [activeTask] } []) actions := by
  intro h
  have hlater := statesStep_run .plain (guarded_append.mp (h (cancelledMeanwhile ++ [Action.advance false (Env.atMicros 0)]))).2 "task"
  have hcancelled : stateOf (run (threads .plain).step (initial Bool { tasks := [activeTask] } []) cancelledMeanwhile).shared.db
      "task" = some .cancelled := by decide +kernel
  have hpaused : stateOf (run (threads .plain).step (initial Bool { tasks := [activeTask] } [])
      (cancelledMeanwhile ++ [Action.advance false (Env.atMicros 0)])).shared.db "task" = some .paused := by decide +kernel
  rw [← run_append, hcancelled, hpaused, stateStep_some] at hlater
  cases hlater rfl

end Runs

end OpenMinion.TaskStates
