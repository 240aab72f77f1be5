import OpenMinion.CronOperations

/-!
# Mutual exclusion of a coordination scope

A run starts running only in `acquire_cron_runs`, one statement per run, and each statement comes after a look at the
runs of its `concurrency_key` as the loop has left them so far.
-/
namespace OpenMinion.CronScopeExclusion
open CronOperations CronSchedules CronStore CronTables CronTransitions KeyedTables PythonText TransitionRuns

variable {db db' : CronDb} {events : List CronEvent}

def Exclusive (db : CronDb) : Prop :=
  ∀ key, ∀ r ∈ db.runs, ∀ s ∈ db.runs, r.state = .running → s.state = .running →
    db.inScope key r = true → db.inScope key s = true → r = s

theorem inScope_iff {key : String} {r : CronRunRow} :
    db.inScope key r = true ↔ ∃ j, db.jobOf r = some j ∧ j.concurrencyKey = some key := by
  simp [CronDb.inScope, Option.any_eq_true]

theorem inScope_before {key : String} {r r' : CronRunRow} (h : RunStep db events db' r r')
    (hscope : db'.inScope key r' = true) : db.inScope key r = true := by
  obtain ⟨j', hj', hkey⟩ := inScope_iff.mp hscope
  obtain ⟨j, hj, hsame⟩ := h.job j' hj'
  exact inScope_iff.mpr ⟨j, hj, hsame.concurrencyKey ▸ hkey⟩

theorem not_running_of_free (hwf : CronWf db) {r s : CronRunRow} (hfree : scopeBusy db r = false)
    (hs : s ∈ db.runs) (hne : s.runId ≠ r.runId) {key : String} (hr : db.inScope key r = true)
    (hscope : db.inScope key s = true) : s.state ≠ .running := by
  intro hrunning
  obtain ⟨j, hj, hkey⟩ := inScope_iff.mp hr
  obtain ⟨hstrip, hnonempty⟩ := (hwf.jobOf hj).concurrencyKey key hkey
  have hbusy : db.scopeHasRunningRun key r.runId = true := by
    rw [CronDb.scopeHasRunningRun, List.any_eq_true]
    exact ⟨s, hs, by simp [hrunning, hne, hscope]⟩
  have hor : stripOr ((db.jobOf r).bind CronJobRow.concurrencyKey) = key := by
    rw [hj, Option.bind_some, hkey]
    exact hstrip
  simp [scopeBusy, hor, hnonempty, hbusy] at hfree

theorem running_cases {r r' : CronRunRow} (h : RunMove db events r r') (hrunning : r'.state = .running) :
    r.state = .running ∨
      scopeBusy db r = false ∧ ∃ owner attempts, events = [.acquired r.runId ⟨owner, attempts⟩] := by
  cases h with
  | kept state attempts owner unnamed => exact .inl (state ▸ hrunning)
  | acquired event queued job free state attempts owner => exact .inr ⟨free, _, _, event⟩
  | requeued silent running state attempts below =>
    rw [state] at hrunning
    cases hrunning
  | closed silent active state attempts =>
    rw [hrunning] at state
    cases state
  | reported event holds state attempts =>
    rw [hrunning] at state
    cases state
  | overridden event state attempts =>
    rw [hrunning] at state
    cases state

theorem Exclusive.step (hwf : CronWf db) (h : Exclusive db) (hstep : CronStep db events db') :
    Exclusive db' := by
  intro key r' hr' s' hs' hrun hrun' hscope hscope'
  apply (hstep.wf hwf).runKey.eq_of_key_eq hr' hs'
  rcases hstep.run_cases hwf hr' with hins | ⟨r, hr, hrstep⟩
  · exact absurd hrun hins.state
  rcases hstep.run_cases hwf hs' with hins | ⟨s, hs, hsstep⟩
  · exact absurd hrun' hins.state
  rw [hrstep.runId, hsstep.runId]
  have hin := inScope_before hrstep hscope
  have hin' := inScope_before hsstep hscope'
  by_contra hne
  rcases running_cases hrstep.move hrun with hbefore | ⟨hfree, o, n, hevents⟩
  · rcases running_cases hsstep.move hrun' with hbefore' | ⟨hfree', -⟩
    · exact hne (congrArg CronRunRow.runId (h key r hr s hs hbefore hbefore' hin hin'))
    · exact not_running_of_free hwf hfree' hr hne hin' hin hbefore
  · rcases running_cases hsstep.move hrun' with hbefore' | ⟨-, o', n', hevents'⟩
    · exact not_running_of_free hwf hfree hs (Ne.symm hne) hin hin' hbefore'
    · -- one statement acquires one run
      rw [hevents] at hevents'
      exact hne (CronEvent.acquired.inj (List.singleton_inj.mp hevents')).1

theorem Exclusive.path (hwf : CronWf db) (h : Exclusive db) (hpath : CronPath db events db') :
    Exclusive db' := by
  have hboth : CronWf db' ∧ Exclusive db' := by
    refine hpath.state_invariant (I := fun db => CronWf db ∧ Exclusive db) ?_ ⟨hwf, h⟩
    intro db events db' hdb hstep
    exact ⟨hstep.wf hdb.1, hdb.2.step hdb.1 hstep⟩
  exact hboth.2

private theorem length_le_one {α : Type} {l : List α} (hnodup : l.Nodup) (h : ∀ a ∈ l, ∀ b ∈ l, a = b) :
    l.length ≤ 1 := by
  cases l with
  | nil => exact Nat.zero_le 1
  | cons a l =>
    cases l with
    | nil => exact le_refl 1
    | cons b l =>
      have hab := h a (by simp) b (by simp)
      simp [hab] at hnodup

/-- Mutual exclusion: after every run of cron store calls, at most one run whose job carries
a given key is running. -/
theorem cronScope_exclusion (env : ScheduleEnv) (calls : List CronCall) (key : String) :
    let db := (run (CronRun.step env) CronRun.start calls).db
    (db.runs.filter fun r => r.state = .running && db.inScope key r).length ≤ 1 := by
  intro db
  obtain ⟨events, -, hpath, -⟩ := CronRun.run_path env CronRun.start_wf calls
  have hwf : CronWf db := CronPath.wf CronRun.start_wf hpath
  have hexclusive : Exclusive db := Exclusive.path CronRun.start_wf (by simp [Exclusive, CronRun.start]) hpath
  apply length_le_one
  · exact hwf.runKey.of_map.filter _
  · intro r hr s hs
    simp only [List.mem_filter, Bool.and_eq_true, decide_eq_true_eq] at hr hs
    exact hexclusive key r hr.1 s hs.1 hr.2.1 hs.2.1 hr.2.2 hs.2.2

end OpenMinion.CronScopeExclusion
