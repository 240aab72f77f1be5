import OpenMinion.CronOperations

/-!
# Runs and their history

While no runs are deleted, the tables agree with what the daemons observed: `attempts`
counts the acquisitions of a run, a running run stands under its latest one, and a run with
an outcome has ended.
-/
namespace OpenMinion.CronRunHistory
open CronOperations CronSchedules CronStore CronTables CronTransitions KeyedTables TransitionRuns

def acquisitions (history : List CronEvent) (runId : String) : List RunFence :=
  history.filterMap fun
    | .acquired id fence => if id = runId then some fence else none
    | _ => none

def outcomes (history : List CronEvent) (runId : String) : List RunFence :=
  history.filterMap fun
    | .outcome id fence => if id = runId then some fence else none
    | _ => none

@[simp] theorem acquisitions_append (history events : List CronEvent) (runId : String) :
    acquisitions (history ++ events) runId = acquisitions history runId ++ acquisitions events runId :=
  List.filterMap_append

@[simp] theorem outcomes_append (history events : List CronEvent) (runId : String) :
    outcomes (history ++ events) runId = outcomes history runId ++ outcomes events runId :=
  List.filterMap_append

theorem acquisitions_unnamed {events : List CronEvent} {runId : String}
    (h : ∀ e ∈ events, e.runId ≠ some runId) : acquisitions events runId = [] := by
  rw [acquisitions, List.filterMap_eq_nil_iff]
  intro e he
  cases e with
  | acquired id fence => simpa [CronEvent.runId] using h _ he
  | outcome | overridden | runsDeleted => rfl

theorem outcomes_unnamed {events : List CronEvent} {runId : String}
    (h : ∀ e ∈ events, e.runId ≠ some runId) : outcomes events runId = [] := by
  rw [outcomes, List.filterMap_eq_nil_iff]
  intro e he
  cases e with
  | outcome id fence => simpa [CronEvent.runId] using h _ he
  | acquired | overridden | runsDeleted => rfl

/-- The history says how a run came to be as it is. -/
structure RunRecorded (history : List CronEvent) (r : CronRunRow) : Prop where
  attempts : (acquisitions history r.runId).length = r.attempts
  latest : r.state = .running → ∃ fence, (acquisitions history r.runId).getLast? = some fence ∧
    r.leaseOwner = some fence.owner ∧ (r.attempts : ℤ) = fence.attempts
  single : (outcomes history r.runId).length ≤ 1
  ended : outcomes history r.runId ≠ [] → r.state.isTerminal = true

variable {db db' : CronDb} {events history : List CronEvent}

private theorem RunRecorded.unobserved {r r' : CronRunRow} (h : RunRecorded history r)
    (hacquisitions : acquisitions events r.runId = []) (houtcomes : outcomes events r.runId = [])
    (hid : r'.runId = r.runId) (hattempts : r'.attempts = r.attempts)
    (hlatest : r'.state = .running → r.state = .running ∧ r'.leaseOwner = r.leaseOwner)
    (hended : r.state.isTerminal = true → r'.state.isTerminal = true) : RunRecorded (history ++ events) r' := by
  constructor
  · rw [hid, hattempts, acquisitions_append, hacquisitions, List.append_nil]
    exact h.attempts
  · intro hrunning
    obtain ⟨hbefore, howner⟩ := hlatest hrunning
    rw [hid, hattempts, howner, acquisitions_append, hacquisitions, List.append_nil]
    exact h.latest hbefore
  · rw [hid, outcomes_append, houtcomes, List.append_nil]
    exact h.single
  · rw [hid, outcomes_append, houtcomes, List.append_nil]
    exact fun hne => hended (h.ended hne)

private theorem not_running_of_terminal {s : RunState} (h : s.isTerminal = true) : s ≠ .running := by
  rintro rfl
  cases h

theorem RunRecorded.step {r r' : CronRunRow} (h : RunRecorded history r)
    (hstep : RunStep db events db' r r') : RunRecorded (history ++ events) r' := by
  have hid := hstep.runId
  -- a run that is not terminal has no outcome yet
  have hopen : r.state.isTerminal = false → outcomes history r.runId = [] := by
    intro hactive
    by_contra hne
    rw [h.ended hne] at hactive
    cases hactive
  cases hstep.move with
  | kept state attempts owner unnamed =>
    refine h.unobserved (acquisitions_unnamed unnamed) (outcomes_unnamed unnamed) hid attempts ?_ ?_
    · exact fun hrunning => ⟨state ▸ hrunning, owner⟩
    · exact fun hterminal => state ▸ hterminal
  | @acquired owner j event queued job free state attempts howner =>
    have hnone := hopen (by rw [queued]; rfl)
    have hfence : acquisitions events r.runId = [⟨owner, (r.attempts + 1 : ℕ)⟩] := by simp [event, acquisitions]
    have houtcomes : outcomes events r.runId = [] := by simp [event, outcomes]
    constructor
    · rw [hid, attempts, acquisitions_append, hfence, List.length_append, h.attempts]
      rfl
    · intro _
      refine ⟨⟨owner, (r.attempts + 1 : ℕ)⟩, ?_, howner, by rw [attempts]⟩
      rw [hid, acquisitions_append, hfence, List.getLast?_append_of_ne_nil _ (by simp)]
      rfl
    · simp [hid, hnone, houtcomes]
    · simp [hid, hnone, houtcomes]
  | requeued silent running state attempts below =>
    refine h.unobserved (by simp [silent, acquisitions]) (by simp [silent, outcomes]) hid attempts ?_ ?_
    · intro hrunning
      rw [state] at hrunning
      cases hrunning
    · intro hterminal
      exact absurd running (not_running_of_terminal hterminal)
  | closed silent active state attempts =>
    refine h.unobserved (by simp [silent, acquisitions]) (by simp [silent, outcomes]) hid attempts ?_ (fun _ => state)
    exact fun hrunning => absurd hrunning (not_running_of_terminal state)
  | @reported fence event holds state attempts =>
    have hrunning : r.state = .running := by
      simp only [RunFence.holds, Bool.and_eq_true, decide_eq_true_eq] at holds
      exact holds.1.1
    have hnone := hopen (by rw [hrunning]; rfl)
    have hacquisitions : acquisitions events r.runId = [] := by simp [event, acquisitions]
    have houtcomes : outcomes events r.runId = [fence] := by simp [event, outcomes]
    constructor
    · rw [hid, attempts, acquisitions_append, hacquisitions, List.append_nil]
      exact h.attempts
    · exact fun hrunning => absurd hrunning (not_running_of_terminal state)
    · simp [hid, hnone, houtcomes]
    · exact fun _ => state
  | overridden event state attempts =>
    refine h.unobserved (by simp [event, acquisitions]) (by simp [event, outcomes]) hid attempts ?_ (fun _ => state)
    exact fun hrunning => absurd hrunning (not_running_of_terminal state)

/-- The history explains the table of runs. -/
structure Recorded (db : CronDb) (history : List CronEvent) : Prop where
  named : ∀ e ∈ history, ∀ runId, e.runId = some runId → ∃ r ∈ db.runs, r.runId = runId
  runs : ∀ r ∈ db.runs, RunRecorded history r

theorem Recorded.empty : Recorded CronRun.start.db [] := by
  constructor
  · exact fun e he => absurd he List.not_mem_nil
  · exact fun r hr => absurd hr List.not_mem_nil

theorem Recorded.step (hwf : CronWf db) (h : Recorded db history) (hstep : CronStep db events db')
    (hkeep : .runsDeleted ∉ events) : Recorded db' (history ++ events) := by
  constructor
  · intro e he runId hid
    obtain ⟨r, hr, hrid⟩ : ∃ r ∈ db.runs, r.runId = runId := by
      rcases List.mem_append.mp he with he | he
      · exact h.named e he runId hid
      · exact hstep.event_run he hid
    obtain ⟨r', hr', hid'⟩ := hstep.run_kept hkeep hr
    exact ⟨r', hr', hid'.trans hrid⟩
  · intro r' hr'
    rcases hstep.run_cases hwf hr' with hins | ⟨r, hr, hrstep⟩
    · -- no event names a run id before the run is inserted
      have hunnamed : ∀ e ∈ history ++ events, e.runId ≠ some r'.runId := by
        rw [hins.silent, List.append_nil]
        intro e he hid
        obtain ⟨r, hr, hrid⟩ := h.named e he r'.runId hid
        exact hins.fresh r hr hrid
      have hacquisitions := acquisitions_unnamed hunnamed
      have houtcomes := outcomes_unnamed hunnamed
      constructor
      · rw [hacquisitions, hins.attempts]
        rfl
      · exact fun hrunning => absurd hrunning hins.state
      · rw [houtcomes]
        exact Nat.zero_le 1
      · exact fun hne => absurd houtcomes hne
    · exact (h.runs r hr).step hrstep

theorem Recorded.path (hwf : CronWf db) (h : Recorded db history) (hpath : CronPath db events db')
    (hkeep : .runsDeleted ∉ events) : Recorded db' (history ++ events) := by
  induction hpath generalizing history with
  | nil db => simpa using h
  | cons head tail ih =>
    rw [List.mem_append, not_or] at hkeep
    rw [← List.append_assoc]
    exact ih (head.wf hwf) (h.step hwf head hkeep.1) hkeep.2

/-- After every run of calls that deletes no runs, the tables are well formed and the history
explains them. -/
theorem recorded_run (env : ScheduleEnv) {calls : List CronCall} (hcalls : ∀ c ∈ calls, c.KeepsRuns) :
    let σ := run (CronRun.step env) CronRun.start calls
    CronWf σ.db ∧ Recorded σ.db σ.history := by
  intro σ
  obtain ⟨events, hhistory, hpath, hkeep, -⟩ := CronRun.run_path env CronRun.start_wf calls
  refine ⟨CronPath.wf CronRun.start_wf hpath, ?_⟩
  have hrecorded := Recorded.empty.path CronRun.start_wf hpath (hkeep hcalls)
  rw [hhistory]
  exact hrecorded

/-- Whatever calls were made, also such that delete jobs or runs: run ids and job ids are unique, a
run has a job that exists or none, and jobs are as they were accepted. -/
theorem tables_wellFormed (env : ScheduleEnv) (calls : List CronCall) :
    CronWf (run (CronRun.step env) CronRun.start calls).db := by
  obtain ⟨_, -, hpath, -⟩ := CronRun.run_path env CronRun.start_wf calls
  exact CronPath.wf CronRun.start_wf hpath

end OpenMinion.CronRunHistory
