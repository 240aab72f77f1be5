import OpenMinion.CronStore
import OpenMinion.TransitionRuns

/-!
# The steps of the cron store

Every operation of the cron store is a path of steps: statements on the jobs, and statements that move runs. `RunStep`
says what one step can do to one run; the properties of the store are derived from it.
-/
namespace OpenMinion.CronTransitions
open CronStore CronTables KeyedTables PythonText TransitionRuns

/-- What the clients of the store observe: a run was handed to a daemon, a fenced call ended
a run, a call without a fence did, or finished runs were deleted. -/
inductive CronEvent where
  | acquired (runId : String) (fence : RunFence)
  | outcome (runId : String) (fence : RunFence)
  | overridden (runId : String)
  | runsDeleted
  deriving DecidableEq

def CronEvent.runId : CronEvent → Option String
  | .acquired runId _ => some runId
  | .outcome runId _ => some runId
  | .overridden runId => some runId
  | .runsDeleted => none

/-- The columns of a job that only `add_cron_job` writes. -/
structure SameJob (j j' : CronJobRow) : Prop where
  jobId : j'.jobId = j.jobId
  maxAttempts : j'.maxAttempts = j.maxAttempts
  concurrencyKey : j'.concurrencyKey = j.concurrencyKey

theorem SameJob.refl (j : CronJobRow) : SameJob j j := ⟨rfl, rfl, rfl⟩

/-- What `add_cron_job` leaves in a job. -/
structure JobWf (j : CronJobRow) : Prop where
  maxAttempts : 1 ≤ j.maxAttempts
  concurrencyKey : ∀ key, j.concurrencyKey = some key → strip key = key ∧ key ≠ ""

theorem JobWf.of_same {j j' : CronJobRow} (h : JobWf j) (hs : SameJob j j') : JobWf j' := by
  refine ⟨?_, ?_⟩
  · rw [hs.maxAttempts]
    exact h.maxAttempts
  · rw [hs.concurrencyKey]
    exact h.concurrencyKey

/-- How one statement moves one run. -/
inductive RunMove (db : CronDb) (events : List CronEvent) (r r' : CronRunRow) : Prop where
  | kept (state : r'.state = r.state) (attempts : r'.attempts = r.attempts)
      (owner : r'.leaseOwner = r.leaseOwner) (unnamed : ∀ e ∈ events, e.runId ≠ some r.runId)
  | acquired {owner : String} {j : CronJobRow}
      (event : events = [.acquired r.runId ⟨owner, (r.attempts + 1 : ℕ)⟩]) (queued : r.state = .queued)
      (job : db.jobOf r = some j) (free : scopeBusy db r = false) (state : r'.state = .running)
      (attempts : r'.attempts = r.attempts + 1) (owner : r'.leaseOwner = some owner)
  | requeued (silent : events = []) (running : r.state = .running) (state : r'.state = .queued)
      (attempts : r'.attempts = r.attempts)
      (below : ∀ j, db.jobOf r = some j → (r.attempts : ℤ) < j.maxAttempts)
  | closed (silent : events = []) (active : r.state.isActive = true) (state : r'.state.isTerminal = true)
      (attempts : r'.attempts = r.attempts)
  | reported {fence : RunFence} (event : events = [.outcome r.runId fence]) (holds : fence.holds r = true)
      (state : r'.state.isTerminal = true) (attempts : r'.attempts = r.attempts)
  | overridden (event : events = [.overridden r.runId]) (state : r'.state.isTerminal = true)
      (attempts : r'.attempts = r.attempts)

/-- One statement on the cron tables. -/
inductive CronStep (db : CronDb) : List CronEvent → CronDb → Prop where
  | other {db' : CronDb} (jobs : db'.jobs = db.jobs) (runs : db'.runs = db.runs) : CronStep db [] db'
  | addJob {job : CronJobRow} (fresh : db.getJob job.jobId = none) (wf : JobWf job) :
      CronStep db [] { db with jobs := db.jobs ++ [job] }
  | updateJobs {p : CronJobRow → Bool} {f : CronJobRow → CronJobRow} (same : ∀ j, SameJob j (f j)) :
      CronStep db [] (db.updateJobs p f)
  | deleteJob (jobId : String) : CronStep db [] (db.deleteJob jobId)
  | insertRun {row : CronRunRow} (insertable : db.runInsertable row = true)
      (state : row.state ≠ .running) (attempts : row.attempts = 0) :
      CronStep db [] { db with runs := db.runs ++ [row] }
  | updateRuns {p : CronRunRow → Bool} {f : CronRunRow → CronRunRow} {events : List CronEvent}
      (runId : ∀ r, (f r).runId = r.runId) (jobId : ∀ r, (f r).jobId = r.jobId)
      (move : ∀ r ∈ db.runs, p r = true → RunMove db events r (f r))
      (unnamed : ∀ r ∈ db.runs, p r = false → ∀ e ∈ events, e.runId ≠ some r.runId)
      (named : ∀ e ∈ events, ∃ r ∈ db.runs, p r = true ∧ e.runId = some r.runId) :
      CronStep db events (db.updateRuns p f)
  | deleteRuns (p : CronRunRow → Bool) :
      CronStep db [.runsDeleted] { db with runs := deleteWhere p db.runs }

abbrev CronPath : CronDb → List CronEvent → CronDb → Prop := Path CronStep

/-- The keys of the cron tables, and the jobs as `add_cron_job` writes them. -/
structure CronWf (db : CronDb) : Prop where
  runKey : UniqueKey CronRunRow.runId db.runs
  jobKey : UniqueKey CronJobRow.jobId db.jobs
  jobs : ∀ j ∈ db.jobs, JobWf j
  runJob : ∀ r ∈ db.runs, ∀ jobId, r.jobId = some jobId → ∃ j ∈ db.jobs, j.jobId = jobId

theorem CronWf.empty : CronWf {} :=
  ⟨.nil, .nil, fun _ h => absurd h List.not_mem_nil, fun _ h => absurd h List.not_mem_nil⟩

theorem CronWf.jobOf {db : CronDb} (h : CronWf db) {r : CronRunRow} {j : CronJobRow}
    (hj : db.jobOf r = some j) : JobWf j := by
  obtain ⟨jobId, -, hlookup⟩ := Option.bind_eq_some_iff.mp hj
  exact h.jobs j (lookup_some hlookup).1

theorem runInsertable_iff {db : CronDb} {row : CronRunRow} : db.runInsertable row = true ↔
    (∀ r ∈ db.runs, r.runId ≠ row.runId) ∧
      ∀ jobId, row.jobId = some jobId → ∃ j ∈ db.jobs, j.jobId = jobId := by
  rw [CronDb.runInsertable, Bool.and_eq_true, Option.isNone_iff_eq_none, CronDb.getRun, lookup_eq_none]
  apply and_congr_right
  intro _
  cases row.jobId with
  | none => simp
  | some jobId => simp [CronDb.getJob, lookup]

theorem CronStep.wf {db db' : CronDb} {events : List CronEvent} (hwf : CronWf db)
    (h : CronStep db events db') : CronWf db' := by
  cases h with
  | other jobs runs => exact ⟨runs ▸ hwf.runKey, jobs ▸ hwf.jobKey, jobs ▸ hwf.jobs, jobs ▸ runs ▸ hwf.runJob⟩
  | @addJob job fresh wf =>
    refine ⟨hwf.runKey, hwf.jobKey.append_singleton (lookup_eq_none.mp fresh), ?_, ?_⟩
    · intro j hj
      rcases List.mem_append.mp hj with hj | hj
      · exact hwf.jobs j hj
      · rw [List.mem_singleton.mp hj]
        exact wf
    · intro r hr jobId hjob
      obtain ⟨j, hj, hid⟩ := hwf.runJob r hr jobId hjob
      exact ⟨j, List.mem_append_left _ hj, hid⟩
  | @updateJobs p f same =>
    refine ⟨hwf.runKey, hwf.jobKey.updateWhere fun j _ => (same j).jobId, ?_, ?_⟩
    · intro j' hj'
      obtain ⟨j, hj, rfl⟩ := mem_updateWhere.mp hj'
      split
      · exact (hwf.jobs j hj).of_same (same j)
      · exact hwf.jobs j hj
    · intro r hr jobId hjob
      obtain ⟨j, hj, hid⟩ := hwf.runJob r hr jobId hjob
      refine ⟨_, mem_updateWhere.mpr ⟨j, hj, rfl⟩, ?_⟩
      split
      · exact (same j).jobId.trans hid
      · exact hid
  | deleteJob jobId =>
    refine ⟨hwf.runKey.updateWhere fun r _ => rfl, hwf.jobKey.deleteWhere, ?_, ?_⟩
    · intro j hj
      exact hwf.jobs j (mem_deleteWhere.mp hj).1
    · intro r' hr' other hjob
      obtain ⟨r, hr, rfl⟩ := mem_updateWhere.mp hr'
      split at hjob
      · cases hjob
      · next hne =>
        obtain ⟨j, hj, hid⟩ := hwf.runJob r hr other hjob
        refine ⟨j, mem_deleteWhere.mpr ⟨hj, ?_⟩, hid⟩
        simpa [hid, hjob] using hne
  | insertRun insertable state attempts =>
    obtain ⟨hfresh, hjob⟩ := runInsertable_iff.mp insertable
    refine ⟨hwf.runKey.append_singleton hfresh, hwf.jobKey, hwf.jobs, ?_⟩
    intro r hr
    rcases List.mem_append.mp hr with hr | hr
    · exact hwf.runJob r hr
    · rw [List.mem_singleton.mp hr]
      exact hjob
  | @updateRuns p f _ runId jobId move unnamed named =>
    refine ⟨hwf.runKey.updateWhere fun r _ => runId r, hwf.jobKey, hwf.jobs, ?_⟩
    intro r' hr'
    obtain ⟨r, hr, rfl⟩ := mem_updateWhere.mp hr'
    split
    · rw [jobId]
      exact hwf.runJob r hr
    · exact hwf.runJob r hr
  | deleteRuns p =>
    refine ⟨hwf.runKey.deleteWhere, hwf.jobKey, hwf.jobs, ?_⟩
    intro r hr
    exact hwf.runJob r (mem_deleteWhere.mp hr).1

theorem CronPath.wf {db db' : CronDb} {events : List CronEvent} (hwf : CronWf db)
    (h : CronPath db events db') : CronWf db' :=
  h.state_invariant (fun _ _ _ hwf h => h.wf hwf) hwf

/-- The version of a run after a step; its job, if it still has one, is the one before. -/
structure RunStep (db : CronDb) (events : List CronEvent) (db' : CronDb) (r r' : CronRunRow) : Prop where
  runId : r'.runId = r.runId
  move : RunMove db events r r'
  job : ∀ j', db'.jobOf r' = some j' → ∃ j, db.jobOf r = some j ∧ SameJob j j'

/-- A run that a step inserted. -/
structure Inserted (db : CronDb) (events : List CronEvent) (r' : CronRunRow) : Prop where
  fresh : ∀ r ∈ db.runs, r.runId ≠ r'.runId
  state : r'.state ≠ .running
  attempts : r'.attempts = 0
  silent : events = []

private theorem RunMove.refl {db : CronDb} {events : List CronEvent} {r : CronRunRow}
    (h : ∀ e ∈ events, e.runId ≠ some r.runId) : RunMove db events r r := .kept rfl rfl rfl h

private theorem RunStep.of_jobs {db db' : CronDb} {events : List CronEvent} {r r' : CronRunRow}
    (hrun : r'.runId = r.runId) (hmove : RunMove db events r r') (hjobs : db'.jobs = db.jobs)
    (hjob : r'.jobId = r.jobId) : RunStep db events db' r r' := by
  refine ⟨hrun, hmove, fun j hj => ⟨j, ?_, .refl j⟩⟩
  rw [← hj, CronDb.jobOf_of_jobs hjobs, CronDb.jobOf, CronDb.jobOf, hjob]

private theorem jobOf_append {db : CronDb} (hwf : CronWf db) (job : CronJobRow) {r : CronRunRow}
    (hr : r ∈ db.runs) : CronDb.jobOf { db with jobs := db.jobs ++ [job] } r = db.jobOf r := by
  rw [CronDb.jobOf, CronDb.jobOf]
  cases hjob : r.jobId with
  | none => rfl
  | some jobId =>
    -- the foreign key: the run already has its job, so the new one is not found first
    obtain ⟨j, hj, hid⟩ := hwf.runJob r hr jobId hjob
    change lookup _ _ _ = lookup _ _ _
    rw [lookup, lookup, List.find?_append, Option.or_of_isSome]
    simpa using ⟨j, hj, hid⟩

theorem jobOf_updateJobs {db : CronDb} {p : CronJobRow → Bool} {f : CronJobRow → CronJobRow}
    (same : ∀ j, SameJob j (f j)) (r : CronRunRow) :
    (db.updateJobs p f).jobOf r = (db.jobOf r).map fun j => if p j then f j else j := by
  rw [CronDb.jobOf, CronDb.jobOf]
  cases r.jobId with
  | none => rfl
  | some jobId => exact lookup_updateWhere (fun j _ => (same j).jobId) jobId

private theorem jobOf_deleteJob {db : CronDb} {jobId : String} {r : CronRunRow} {j : CronJobRow}
    (hj : (db.deleteJob jobId).jobOf r = some j) : db.jobOf r = some j := by
  obtain ⟨other, hother, hlookup⟩ := Option.bind_eq_some_iff.mp hj
  rw [CronDb.jobOf, hother]
  change lookup _ _ _ = _
  change lookup _ _ (deleteWhere _ _) = _ at hlookup
  rw [lookup, deleteWhere, List.find?_filter] at hlookup
  have hne : other ≠ jobId := by
    have hfound := List.find?_some hlookup
    simp only [Bool.not_eq_true', decide_eq_false_iff_not, decide_eq_true_eq] at hfound
    exact fun h => hfound.1 (hfound.2.trans h)
  rw [lookup, ← hlookup]
  congr 1
  funext k
  by_cases hk : k.jobId = other
  · simp [hk, hne]
  · simp [hk]

theorem CronStep.run_cases {db db' : CronDb} {events : List CronEvent} (hwf : CronWf db)
    (h : CronStep db events db') {r' : CronRunRow} (hr' : r' ∈ db'.runs) :
    Inserted db events r' ∨ ∃ r ∈ db.runs, RunStep db events db' r r' := by
  have hsilent : ∀ e ∈ ([] : List CronEvent), e.runId ≠ some r'.runId := by simp
  cases h with
  | other jobs runs => exact .inr ⟨r', runs ▸ hr', .of_jobs rfl (.refl hsilent) jobs rfl⟩
  | @addJob job fresh wf =>
    refine .inr ⟨r', hr', rfl, .refl hsilent, ?_⟩
    intro j hj
    rw [jobOf_append hwf job hr'] at hj
    exact ⟨j, hj, .refl j⟩
  | @updateJobs p f same =>
    refine .inr ⟨r', hr', rfl, .refl hsilent, ?_⟩
    intro j' hj'
    rw [jobOf_updateJobs same] at hj'
    obtain ⟨j, hj, rfl⟩ := Option.map_eq_some_iff.mp hj'
    refine ⟨j, hj, ?_⟩
    split
    · exact same j
    · exact .refl j
  | deleteJob jobId =>
    obtain ⟨r, hr, rfl⟩ := mem_updateWhere.mp hr'
    refine .inr ⟨r, hr, ?_⟩
    split
    · refine ⟨rfl, .kept rfl rfl rfl (by simp), ?_⟩
      intro j hj
      cases hj
    · exact ⟨rfl, .refl (by simp), fun j hj => ⟨j, jobOf_deleteJob hj, .refl j⟩⟩
  | insertRun insertable state attempts =>
    rcases List.mem_append.mp hr' with hr' | hr'
    · exact .inr ⟨r', hr', .of_jobs rfl (.refl hsilent) rfl rfl⟩
    · obtain rfl := List.mem_singleton.mp hr'
      exact .inl ⟨(runInsertable_iff.mp insertable).1, state, attempts, rfl⟩
  | @updateRuns p f _ runId jobId move unnamed named =>
    obtain ⟨r, hr, rfl⟩ := mem_updateWhere.mp hr'
    refine .inr ⟨r, hr, ?_⟩
    cases hp : p r with
    | true => exact .of_jobs (runId r) (move r hr hp) rfl (jobId r)
    | false => exact .of_jobs rfl (.refl (unnamed r hr hp)) rfl rfl
  | deleteRuns p =>
    exact .inr ⟨r', (mem_deleteWhere.mp hr').1, .of_jobs rfl (.refl (by simp [CronEvent.runId])) rfl rfl⟩

theorem CronStep.run_kept {db db' : CronDb} {events : List CronEvent} (h : CronStep db events db')
    (hkeep : .runsDeleted ∉ events) {r : CronRunRow} (hr : r ∈ db.runs) :
    ∃ r' ∈ db'.runs, r'.runId = r.runId := by
  cases h with
  | other jobs runs => exact ⟨r, runs ▸ hr, rfl⟩
  | addJob fresh wf => exact ⟨r, hr, rfl⟩
  | updateJobs same => exact ⟨r, hr, rfl⟩
  | deleteJob jobId =>
    refine ⟨_, mem_updateWhere.mpr ⟨r, hr, rfl⟩, ?_⟩
    split <;> rfl
  | insertRun insertable state attempts => exact ⟨r, List.mem_append_left _ hr, rfl⟩
  | updateRuns runId jobId move unnamed named =>
    refine ⟨_, mem_updateWhere.mpr ⟨r, hr, rfl⟩, ?_⟩
    split
    · exact runId r
    · rfl
  | deleteRuns p => exact absurd (List.mem_singleton_self _) hkeep

theorem CronPath.run_kept {db db' : CronDb} {events : List CronEvent} (h : CronPath db events db')
    (hkeep : .runsDeleted ∉ events) {r : CronRunRow} (hr : r ∈ db.runs) :
    ∃ r' ∈ db'.runs, r'.runId = r.runId := by
  induction h generalizing r with
  | nil db => exact ⟨r, hr, rfl⟩
  | cons head tail ih =>
    rw [List.mem_append, not_or] at hkeep
    obtain ⟨r₁, hr₁, hid₁⟩ := head.run_kept hkeep.1 hr
    obtain ⟨r₂, hr₂, hid₂⟩ := ih hkeep.2 hr₁
    exact ⟨r₂, hr₂, hid₂.trans hid₁⟩

theorem CronStep.run_next {db db' : CronDb} {events : List CronEvent} (hwf : CronWf db)
    (h : CronStep db events db') (hkeep : .runsDeleted ∉ events) {r : CronRunRow} (hr : r ∈ db.runs) :
    ∃ r' ∈ db'.runs, RunStep db events db' r r' := by
  obtain ⟨r', hr', hid⟩ := h.run_kept hkeep hr
  rcases h.run_cases hwf hr' with hins | ⟨s, hs, hstep⟩
  · exact absurd hid.symm (hins.fresh r hr)
  · obtain rfl := hwf.runKey.eq_of_key_eq hs hr (hstep.runId.symm.trans hid)
    exact ⟨r', hr', hstep⟩

theorem CronStep.event_run {db db' : CronDb} {events : List CronEvent} (h : CronStep db events db')
    {e : CronEvent} (he : e ∈ events) {runId : String} (hid : e.runId = some runId) :
    ∃ r ∈ db.runs, r.runId = runId := by
  cases h with
  | updateRuns _ _ move unnamed named =>
    obtain ⟨r, hr, -, hr'⟩ := named e he
    exact ⟨r, hr, Option.some.inj (hr'.symm.trans hid)⟩
  | deleteRuns p =>
    rw [List.mem_singleton.mp he] at hid
    cases hid
  | other | addJob | updateJobs | deleteJob | insertRun => cases he

end OpenMinion.CronTransitions
