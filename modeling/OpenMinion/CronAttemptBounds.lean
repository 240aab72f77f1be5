import OpenMinion.CronRunHistory

/-!
# Bounded execution attempts

`acquire_cron_runs` counts an attempt without looking at the limit of the job. The bound holds because a run returns to
the queue only while its job has attempts left.
-/
namespace OpenMinion.CronAttemptBounds
open CronOperations CronRunHistory CronSchedules CronStore CronTables CronTransitions KeyedTables TransitionRuns

variable {db db' : CronDb} {events : List CronEvent}

/-- The attempts of a run stay within a limit, which is the one of its job as long as it has
one; a queued run has an attempt left. -/
structure Within (db : CronDb) (limit : ℤ) (r : CronRunRow) : Prop where
  attempts : (r.attempts : ℤ) ≤ limit
  job : ∀ j, db.jobOf r = some j → j.maxAttempts = limit ∧ (r.state = .queued → (r.attempts : ℤ) < limit)

theorem Within.step {limit : ℤ} {r r' : CronRunRow} (h : Within db limit r)
    (hstep : RunStep db events db' r r') : Within db' limit r' := by
  have hlimit : ∀ j', db'.jobOf r' = some j' → ∃ j, db.jobOf r = some j ∧ j'.maxAttempts = limit := by
    intro j' hj'
    obtain ⟨j, hj, hsame⟩ := hstep.job j' hj'
    exact ⟨j, hj, hsame.maxAttempts.trans (h.job j hj).1⟩
  cases hstep.move with
  | kept state attempts owner unnamed =>
    refine ⟨attempts ▸ h.attempts, ?_⟩
    intro j' hj'
    obtain ⟨j, hj, heq⟩ := hlimit j' hj'
    rw [state, attempts]
    exact ⟨heq, (h.job j hj).2⟩
  | acquired event queued job free state attempts owner =>
    have hlt := (h.job _ job).2 queued
    refine ⟨by rw [attempts]; push_cast; omega, ?_⟩
    intro j' hj'
    obtain ⟨j, hj, heq⟩ := hlimit j' hj'
    refine ⟨heq, fun hqueued => ?_⟩
    rw [state] at hqueued
    cases hqueued
  | requeued silent running state attempts below =>
    refine ⟨attempts ▸ h.attempts, ?_⟩
    intro j' hj'
    obtain ⟨j, hj, heq⟩ := hlimit j' hj'
    rw [attempts, ← (h.job j hj).1]
    exact ⟨heq.trans (h.job j hj).1.symm, fun _ => below j hj⟩
  | closed _ _ state attempts | reported _ _ state attempts | overridden _ state attempts =>
    refine ⟨attempts ▸ h.attempts, ?_⟩
    intro j' hj'
    obtain ⟨j, hj, heq⟩ := hlimit j' hj'
    refine ⟨heq, fun hqueued => ?_⟩
    rw [hqueued] at state
    cases state

theorem within_inserted (hwf : CronWf db') {r' : CronRunRow} (hins : Inserted db events r') :
    ∃ limit, Within db' limit r' := by
  cases hjob : db'.jobOf r' with
  | none =>
    refine ⟨0, by rw [hins.attempts]; exact le_refl 0, ?_⟩
    intro j hj
    rw [hjob] at hj
    cases hj
  | some j =>
    have hpos := (hwf.jobOf hjob).maxAttempts
    refine ⟨j.maxAttempts, by rw [hins.attempts]; push_cast; omega, ?_⟩
    intro k hk
    obtain rfl := Option.some.inj (hjob.symm.trans hk)
    exact ⟨rfl, fun _ => by rw [hins.attempts]; push_cast; omega⟩

theorem within_path (hwf : CronWf db) (h : ∀ r ∈ db.runs, ∃ limit, Within db limit r)
    (hpath : CronPath db events db') : ∀ r ∈ db'.runs, ∃ limit, Within db' limit r := by
  induction hpath with
  | nil db => exact h
  | cons head tail ih =>
    apply ih (head.wf hwf)
    intro r' hr'
    rcases head.run_cases hwf hr' with hins | ⟨r, hr, hstep⟩
    · exact within_inserted (head.wf hwf) hins
    · obtain ⟨limit, hwithin⟩ := h r hr
      exact ⟨limit, hwithin.step hstep⟩

theorem Within.later (hwf : CronWf db) {limit : ℤ} {r : CronRunRow} (hr : r ∈ db.runs)
    (h : Within db limit r) (hpath : CronPath db events db') (hkeep : .runsDeleted ∉ events) :
    ∃ r' ∈ db'.runs, r'.runId = r.runId ∧ Within db' limit r' := by
  induction hpath generalizing r with
  | nil db => exact ⟨r, hr, rfl, h⟩
  | cons head tail ih =>
    rw [List.mem_append, not_or] at hkeep
    obtain ⟨r₁, hr₁, hstep⟩ := head.run_next hwf hkeep.1 hr
    obtain ⟨r₂, hr₂, hid, hwithin⟩ := ih (head.wf hwf) hr₁ (h.step hstep) hkeep.2
    exact ⟨r₂, hr₂, hid.trans hstep.runId, hwithin⟩

/-- After every run of calls that deletes no runs a queued run has an attempt left, a running one has used between one
and all of them, and no run is ever handed out more often than its job allows. -/
theorem cronRun_attempts_bounded (env : ScheduleEnv) (calls : List CronCall)
    (hcalls : ∀ c ∈ calls, c.KeepsRuns) :
    let σ := run (CronRun.step env) CronRun.start calls
    ∀ r ∈ σ.db.runs, ∀ j, σ.db.jobOf r = some j →
      (r.state = .queued → (r.attempts : ℤ) < max 1 j.maxAttempts) ∧
      (r.state = .running → 1 ≤ r.attempts ∧ (r.attempts : ℤ) ≤ max 1 j.maxAttempts) ∧
      ∀ later : List CronCall, (∀ c ∈ later, c.KeepsRuns) →
        ((acquisitions (run (CronRun.step env) σ later).history r.runId).length : ℤ) ≤ max 1 j.maxAttempts := by
  intro σ r hr j hj
  obtain ⟨hwf, hrecorded⟩ := recorded_run env hcalls
  obtain ⟨events, -, hpath, -⟩ := CronRun.run_path env CronRun.start_wf calls
  obtain ⟨limit, hwithin⟩ := within_path CronRun.start_wf (by simp [CronRun.start]) hpath r hr
  obtain ⟨hmax, hqueued⟩ := hwithin.job j hj
  have hlimit : max 1 j.maxAttempts = limit := by
    rw [max_eq_right (hwf.jobOf hj).maxAttempts]
    exact hmax
  rw [hlimit]
  refine ⟨hqueued, ?_, ?_⟩
  · intro hrunning
    refine ⟨?_, hwithin.attempts⟩
    obtain ⟨fence, hlast, -⟩ := (hrecorded.runs r hr).latest hrunning
    rw [← (hrecorded.runs r hr).attempts]
    exact List.length_pos_of_mem (List.mem_of_getLast? hlast)
  · intro later hlater
    obtain ⟨events', hhistory', hpath', hkeep', -⟩ := CronRun.run_path env hwf later
    obtain ⟨r', hr', hid, hwithin'⟩ := hwithin.later hwf hr hpath' (hkeep' hlater)
    have hrecorded' := hrecorded.path hwf hpath' (hkeep' hlater)
    rw [hhistory', ← hid, (hrecorded'.runs r' hr').attempts]
    exact hwithin'.attempts

def singleAttempt : List CronCall :=
  [.addCronJob (hourlyJob "j" 1 none),
    .triggerCronRun { jobId := "j", freshId := "r", now := clock 0 },
    .acquireCronRuns { daemonId := "a", now := clock 1 }]

/-- After the lease expired, another daemon does not get the run. -/
theorem cronRun_singleAttempt_bounded :
    let σ := run (CronRun.step plainEnv) CronRun.start singleAttempt
    (∀ c ∈ singleAttempt, c.KeepsRuns) ∧ acquisitions σ.history "r" = [⟨"a", 1⟩] ∧
      ((acquisitions (run (CronRun.step plainEnv) σ
        [.acquireCronRuns { daemonId := "b", now := clock 100 }]).history "r").length : ℤ) ≤ 1 := by
  intro σ
  have hcalls : ∀ c ∈ singleAttempt, c.KeepsRuns := by simp [singleAttempt, CronCall.KeepsRuns]
  have hne : σ.db.runs ≠ [] := by decide +kernel
  have hall : ∀ r ∈ σ.db.runs, r.runId = "r" ∧ (σ.db.jobOf r).map CronJobRow.maxAttempts = some 1 := by
    decide +kernel
  obtain ⟨r, hr⟩ := List.exists_mem_of_ne_nil _ hne
  obtain ⟨hid, hjob⟩ := hall r hr
  obtain ⟨j, hj, hmax⟩ := Option.map_eq_some_iff.mp hjob
  obtain ⟨-, -, hlater⟩ := cronRun_attempts_bounded plainEnv singleAttempt hcalls r hr j hj
  refine ⟨hcalls, by decide +kernel, ?_⟩
  have hbound := hlater [.acquireCronRuns { daemonId := "b", now := clock 100 }] (by simp [CronCall.KeepsRuns])
  rwa [hid, hmax] at hbound

end OpenMinion.CronAttemptBounds
