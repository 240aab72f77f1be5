import OpenMinion.CronLeaseRecovery

/-!
# Admission to a busy scope

`trigger_cron_run` and `enqueue_due_cron_runs` count the queued and running runs of the whole scope;
`trigger_task_run_now` counts those of the job alone.
-/
namespace OpenMinion.CronAdmission
open CronLeaseRecovery CronOperations CronSchedules CronStore CronTables CronTransitions IsoTimestamps
open KeyedTables PythonText SessionTables TransitionRuns

variable {db db' : CronDb} {key jobId : String}

def Busy (db : CronDb) (key : String) : Prop :=
  ∃ r ∈ db.runs, r.state.isActive = true ∧ db.inScope key r = true

def InsertsNone (db db' : CronDb) (jobId : String) : Prop :=
  ∀ r' ∈ db'.runs, r'.jobId = some jobId → ∃ r ∈ db.runs, r.runId = r'.runId

instance (db : CronDb) (key : String) : Decidable (Busy db key) :=
  inferInstanceAs (Decidable (∃ r ∈ db.runs, r.state.isActive = true ∧ db.inScope key r = true))

instance (db db' : CronDb) (jobId : String) : Decidable (InsertsNone db db' jobId) :=
  inferInstanceAs
    (Decidable (∀ r' ∈ db'.runs, r'.jobId = some jobId → ∃ r ∈ db.runs, r.runId = r'.runId))

/-- The recovery that starts a call at this time ends the run for good. -/
def EndsOnRecovery (db : CronDb) (now : DateTime) (r : CronRunRow) : Prop :=
  isExpired (toIsoUtc now) r = true ∧ ∃ j, db.jobOf r = some j ∧ recoveryLimit j ≤ r.attempts

theorem activeInScope_pos (h : Busy db key) : 0 < db.activeInScope key := by
  obtain ⟨r, hr, hactive, hscope⟩ := h
  rw [CronDb.activeInScope, List.countP_pos_iff]
  exact ⟨r, hr, by rw [hactive, hscope]; rfl⟩

theorem busy_recovered (hwf : CronWf db) {now : DateTime} {limit : ℤ} {recovered : List RecoveredRun}
    {r : CronRunRow} (hr : r ∈ db.runs) (hactive : r.state.isActive = true) (hscope : db.inScope key r = true)
    (hlasting : ¬ EndsOnRecovery db now r) (h : recoverExpiredCronRuns db now limit = .ok (db', recovered)) :
    Busy db' key := by
  have hjobs : db'.jobs = db.jobs := (recoverExpiredCronRuns_ok hwf h).jobs
  have hkept : ∃ r' ∈ db'.runs, r'.runId = r.runId ∧ r'.jobId = r.jobId ∧ r'.state.isActive = true := by
    rw [recoverExpiredCronRuns] at h
    refine foldlM_invariant (J := fun acc => ∃ r' ∈ acc.1.runs,
      r'.runId = r.runId ∧ r'.jobId = r.jobId ∧ r'.state.isActive = true) ?_ ⟨r, hr, rfl, rfl, hactive⟩ h
    rintro acc ⟨s, j⟩ hrow acc' ⟨r', hr', hid, hjob, hactive'⟩ hok
    obtain ⟨hs, hj, hstate, hlease⟩ := mem_expiredRuns hrow
    obtain ⟨f, hf, hfields⟩ := recoverRun_ok hok
    rw [hf]
    refine ⟨_, mem_updateWhere.mpr ⟨r', hr', rfl⟩, ?_⟩
    split
    · next hrunning =>
      -- the iteration is about this run, so it has attempts left and is queued again
      obtain ⟨hsid, -⟩ := of_decide_eq_true hrunning
      obtain rfl := hwf.runKey.eq_of_key_eq hs hr (hsid.symm.trans hid)
      have hqueued : recoveredState s j = .queued := by
        refine if_neg fun hused => hlasting ⟨?_, j, hj, hused⟩
        rw [isExpired, hlease, hstate]
        rfl
      obtain ⟨hfid, hfjob, hfstate⟩ := hfields r'
      exact ⟨hfid.trans hid, hfjob.trans hjob, by rw [hfstate, hqueued]; rfl⟩
    · exact ⟨hid, hjob, hactive'⟩
  obtain ⟨r', hr', -, hjob, hactive'⟩ := hkept
  refine ⟨r', hr', hactive', ?_⟩
  rw [CronDb.inScope, CronDb.jobOf_of_jobs hjobs, CronDb.jobOf, hjob]
  exact hscope

/-- What admitting runs of one job leaves as it was. -/
structure Admitted (jobId : String) (db db' : CronDb) : Prop where
  kept : ∀ r ∈ db.runs, r ∈ db'.runs
  new : ∀ r ∈ db'.runs, r ∈ db.runs ∨ r.jobId = some jobId
  inScope : ∀ key r, db'.inScope key r = db.inScope key r

theorem Admitted.refl (jobId : String) (db : CronDb) : Admitted jobId db db :=
  ⟨fun _ h => h, fun _ h => .inl h, fun _ _ => rfl⟩

theorem Admitted.trans {db₁ : CronDb} (h : Admitted jobId db db₁) (h' : Admitted jobId db₁ db') :
    Admitted jobId db db' := by
  refine ⟨fun r hr => h'.kept r (h.kept r hr), ?_, fun key r => (h'.inScope key r).trans (h.inScope key r)⟩
  intro r hr
  rcases h'.new r hr with hr | hr
  · exact h.new r hr
  · exact .inr hr

theorem Admitted.busy (h : Admitted jobId db db') (hbusy : Busy db key) : Busy db' key := by
  obtain ⟨r, hr, hactive, hscope⟩ := hbusy
  exact ⟨r, h.kept r hr, hactive, (h.inScope key r).trans hscope⟩

theorem admitted_updateJobs (jobId : String) {p : CronJobRow → Bool} {f : CronJobRow → CronJobRow}
    (same : ∀ j, SameJob j (f j)) : Admitted jobId db (db.updateJobs p f) := by
  refine ⟨fun _ h => h, fun _ h => .inl h, ?_⟩
  intro key r
  rw [CronDb.inScope, CronDb.inScope, jobOf_updateJobs same]
  cases db.jobOf r with
  | none => rfl
  | some j =>
    simp only [Option.map_some, Option.any_some]
    split
    · rw [(same j).concurrencyKey]
    · rfl

theorem admitted_insertRunIfNew {row : CronRunRow} {inserted : Bool} (hjob : row.jobId = some jobId)
    (h : db.insertRunIfNew row = .ok (db', inserted)) : Admitted jobId db db' := by
  rw [CronDb.insertRunIfNew] at h
  split at h
  · obtain ⟨rfl, -⟩ := Prod.mk.inj (Except.ok.inj h)
    exact .refl jobId db
  · split at h
    · obtain ⟨rfl, -⟩ := Prod.mk.inj (Except.ok.inj h)
      refine ⟨fun r hr => List.mem_append_left _ hr, ?_, fun _ _ => rfl⟩
      intro r hr
      rcases List.mem_append.mp hr with hr | hr
      · exact .inl hr
      · rw [List.mem_singleton.mp hr]
        exact .inr hjob
    · cases h

theorem admitted_persistDueDecision {job : CronJobRow} {duePoints : List DateTime} {nextDue : Option DateTime}
    {now freshId : String} (h : persistDueDecision db job duePoints nextDue now freshId = .ok db') :
    Admitted job.jobId db db' := by
  simp only [persistDueDecision] at h
  split at h
  · obtain ⟨⟨db₂, _⟩, hinsert, h⟩ := bind_eq_ok.mp h
    obtain rfl := Except.ok.inj h
    have hinserted := admitted_insertRunIfNew rfl hinsert
    refine .trans (.trans (admitted_updateJobs _ ?_) hinserted) (admitted_updateJobs _ ?_)
    · exact fun j => ⟨rfl, rfl, rfl⟩
    · exact fun j => ⟨rfl, rfl, rfl⟩
  · obtain rfl := Except.ok.inj h
    exact admitted_updateJobs _ fun j => ⟨rfl, rfl, rfl⟩

theorem enqueueJob_ok {env : ScheduleEnv} {e : EnqueueDue} {owner leaseExpires : String}
    {acc acc' : CronDb × List CronRunRow} {job : CronJobRow}
    (h : enqueueJob env e owner leaseExpires acc job = .ok acc') :
    Admitted job.jobId acc.1 acc'.1 ∧
      (stripOr job.concurrencyKey ≠ "" → Busy acc.1 (stripOr job.concurrencyKey) → acc'.1.runs = acc.1.runs) := by
  simp only [enqueueJob] at h
  split at h
  · obtain rfl := Except.ok.inj h
    exact ⟨admitted_updateJobs _ fun j => ⟨rfl, rfl, rfl⟩, fun _ _ => rfl⟩
  · generalize hmax : (if stripOr job.concurrencyKey ≠ "" then 1 else (max 1 job.maxConcurrency).toNat) =
      maxForJob at h
    split at h
    · obtain rfl := Except.ok.inj h
      exact ⟨.refl _ _, fun _ _ => rfl⟩
    · next hroom =>
      obtain ⟨⟨selected, nextDue⟩, -, h⟩ := bind_eq_ok.mp h
      obtain ⟨db₁, hdecision, h⟩ := bind_eq_ok.mp h
      constructor
      · refine foldlM_invariant (J := fun b => Admitted job.jobId acc.1 b.1) ?_
          (admitted_persistDueDecision hdecision) h
        intro b due _ b' hb hok
        rw [insertDueRuns] at hok
        obtain ⟨⟨db₂, inserted⟩, hinsert, hok⟩ := bind_eq_ok.mp hok
        obtain rfl := Except.ok.inj hok
        exact hb.trans (admitted_insertRunIfNew rfl hinsert)
      · intro hkey hbusy
        rw [if_pos hkey] at hmax
        have hpos := activeInScope_pos hbusy
        rw [activeCronRunCount, if_pos hkey, ← hmax] at hroom
        exact absurd hpos hroom

theorem mem_dueJobRows {env : ScheduleEnv} {nowIso : String} {now : DateTime} {limit : ℕ} {job : CronJobRow}
    (h : job ∈ dueJobRows env db nowIso now limit) : job ∈ db.jobs := by
  have henabled : ∀ j ∈ (db.jobs.filter fun j => j.enabled && j.nextDueAt.isSome).insertionSort
      fun a b => a.nextDueAt.getD "" ≤ b.nextDueAt.getD "", j ∈ db.jobs := by
    intro j hj
    exact (List.mem_filter.mp ((List.perm_insertionSort _ _).mem_iff.mp hj)).1
  simp only [dueJobRows] at h
  split at h
  · exact henabled job (List.mem_filter.mp (List.mem_of_mem_take h)).1
  · exact henabled job (List.mem_filter.mp (List.mem_of_mem_take h)).1

theorem enqueueRecovered_none {env : ScheduleEnv} {e : EnqueueDue} {owner leaseExpires : String}
    {rows : List CronRunRow} (hwf : CronWf db) {job : CronJobRow} (hjob : job ∈ db.jobs)
    (hkey : job.concurrencyKey = some key) (hbusy : Busy db key)
    (h : enqueueRecovered env e owner leaseExpires db = .ok (db', rows)) : InsertsNone db db' job.jobId := by
  obtain ⟨hstrip, hnonempty⟩ := (hwf.jobs job hjob).concurrencyKey key hkey
  rw [enqueueRecovered] at h
  split at h
  · obtain ⟨rfl, -⟩ := Prod.mk.inj (Except.ok.inj h)
    exact fun r hr _ => ⟨r, hr, rfl⟩
  · have hloop : Busy db' key ∧ InsertsNone db db' job.jobId := by
      refine foldlM_invariant (J := fun acc => Busy acc.1 key ∧ InsertsNone db acc.1 job.jobId) ?_
        ⟨hbusy, fun r hr _ => ⟨r, hr, rfl⟩⟩ h
      rintro acc row hrow acc' ⟨hbusy', hnone⟩ hok
      obtain ⟨hadmitted, hclosed⟩ := enqueueJob_ok hok
      refine ⟨hadmitted.busy hbusy', ?_⟩
      intro r hr hid
      rcases hadmitted.new r hr with hold | hnew
      · exact hnone r hold hid
      · -- the rows of the loop are jobs of the table, so this is the iteration of the busy job
        have hmem : row ∈ db.jobs := mem_dueJobRows hrow
        obtain rfl := hwf.jobKey.eq_of_key_eq hmem hjob (Option.some.inj (hnew.symm.trans hid))
        have hkey' : stripOr row.concurrencyKey = key := by rw [hkey]; exact hstrip
        rw [hkey'] at hclosed
        rw [hclosed hnonempty hbusy'] at hr
        exact hnone r hr hid
    exact hloop.2

theorem enqueueDueCronRuns_none {env : ScheduleEnv} {e : EnqueueDue} {rows : List CronRunRow}
    (hwf : CronWf db) {job : CronJobRow} (hjob : job ∈ db.jobs) (hkey : job.concurrencyKey = some key)
    {r : CronRunRow} (hr : r ∈ db.runs) (hactive : r.state.isActive = true) (hscope : db.inScope key r = true)
    (hlasting : ¬ EndsOnRecovery db e.now r) (h : enqueueDueCronRuns env db e = .ok (db', rows)) :
    InsertsNone db db' job.jobId := by
  rw [enqueueDueCronRuns] at h
  obtain ⟨owner, -, h⟩ := bind_eq_ok.mp h
  obtain ⟨leaseExpires, -, h⟩ := bind_eq_ok.mp h
  obtain ⟨⟨db₁, recovered⟩, hrecover, h⟩ := bind_eq_ok.mp h
  change enqueueRecovered env e owner (toIsoUtc leaseExpires) db₁ = _ at h
  have hrecovering := recoverExpiredCronRuns_ok hwf hrecover
  have hids : db₁.runs.map CronRunRow.runId = db.runs.map CronRunRow.runId := by
    rw [recoverExpiredCronRuns] at hrecover
    refine foldlM_invariant
      (J := fun acc => acc.1.runs.map CronRunRow.runId = db.runs.map CronRunRow.runId) ?_ rfl hrecover
    rintro acc ⟨s, j⟩ _ acc' hacc hok
    obtain ⟨f, hf, hfields⟩ := recoverRun_ok hok
    rw [hf, ← hacc]
    exact map_key_updateWhere fun s _ => (hfields s).1
  have hnone := enqueueRecovered_none (CronPath.wf hwf hrecovering.path) (hrecovering.jobs ▸ hjob) hkey
    (busy_recovered hwf hr hactive hscope hlasting hrecover) h
  intro r' hr' hid
  obtain ⟨r₁, hr₁, hid₁⟩ := hnone r' hr' hid
  have hmem : r'.runId ∈ db.runs.map CronRunRow.runId := hids ▸ List.mem_map.mpr ⟨r₁, hr₁, hid₁⟩
  exact List.mem_map.mp hmem

theorem triggerCronRun_busy (hwf : CronWf db) (env : ScheduleEnv) {job : CronJobRow} (hjob : job ∈ db.jobs)
    (hkey : job.concurrencyKey = some key) (hbusy : Busy db key) {t : TriggerCronRun}
    (ht : t.jobId = job.jobId) : ∃ error, triggerCronRun env db t = .error error := by
  obtain ⟨hstrip, hnonempty⟩ := (hwf.jobs job hjob).concurrencyKey key hkey
  have hget : db.getJob t.jobId = some job := hwf.jobKey.lookup_eq_some_iff.mpr ⟨hjob, ht.symm⟩
  cases hok : triggerCronRun env db t with
  | error error => exact ⟨error, rfl⟩
  | ok result =>
    rw [triggerCronRun, hget] at hok
    obtain ⟨due, -, hok⟩ := bind_eq_ok.mp hok
    obtain ⟨expires, -, hok⟩ := bind_eq_ok.mp hok
    obtain ⟨_, hfree, -⟩ := bind_eq_ok.mp hok
    have hkey' : stripOr job.concurrencyKey = key := by rw [hkey]; exact hstrip
    rw [require_eq_ok, hkey'] at hfree
    have hpos := activeInScope_pos hbusy
    simp only [hnonempty, decide_false, Bool.false_or, decide_eq_true_eq] at hfree
    omega

/-- The run that `trigger_task_run_now` would insert collides with a run of the table. -/
def Conflicts (db : CronDb) (jobId freshId : String) (now : DateTime) : Prop :=
  ∃ r ∈ db.runs, r.runId = freshId ∨ r.jobId = some jobId ∧ r.dueAt = toIsoUtc now

theorem insertRun_error_iff {job : CronJobRow} (hget : db.getJob jobId = some job) (freshId : String)
    (now : DateTime) :
    (∃ error, db.insertRun (queuedRun freshId jobId (toIsoUtc now) (toIsoUtc now) none none) = .error error) ↔
      Conflicts db jobId freshId now := by
  have hinsertable : db.runInsertable (queuedRun freshId jobId (toIsoUtc now) (toIsoUtc now) none none) = true ↔
      ∀ r ∈ db.runs, r.runId ≠ freshId := by
    rw [runInsertable_iff]
    refine ⟨fun h => h.1, fun h => ⟨h, ?_⟩⟩
    intro id hid
    obtain rfl := Option.some.inj hid
    exact ⟨job, lookup_some hget⟩
  rw [CronDb.insertRun, Conflicts]
  split
  · next hok =>
    rw [Bool.and_eq_true, hinsertable] at hok
    simp only [reduceCtorEq, exists_false, false_iff, not_exists, not_and]
    intro r hr
    have hdue := hok.2
    simp only [CronDb.sameDue, queuedRun, Bool.not_eq_true', List.any_eq_false, Bool.and_eq_true,
      decide_eq_true_eq, not_and, Option.isSome_iff_exists] at hdue
    rintro (hid | ⟨hid, hat⟩)
    · exact hok.1 r hr hid
    · exact hdue r hr ⟨⟨_, hid⟩, hid⟩ hat
  · next hfail =>
    refine ⟨fun _ => ?_, fun _ => ⟨_, rfl⟩⟩
    by_contra hnone
    simp only [not_exists, not_and, not_or] at hnone
    apply hfail
    rw [Bool.and_eq_true, hinsertable]
    refine ⟨fun r hr => (hnone r hr).1, ?_⟩
    simp only [CronDb.sameDue, queuedRun, Bool.not_eq_true', List.any_eq_false, Bool.and_eq_true,
      decide_eq_true_eq, not_and]
    exact fun r hr hid => (hnone r hr).2 hid.2

/-- `trigger_task_run_now` looks at the active runs of its own job only. -/
theorem triggerTaskRunNow_error_iff (hwf : CronWf db) {job : CronJobRow} (hjob : job ∈ db.jobs)
    {argument freshId : String} {now : DateTime} (hname : strip argument = job.jobId) (hne : strip argument ≠ "") :
    (∃ error, triggerTaskRunNow db argument freshId now = .error error) ↔
      db.paused = true ∨ job.enabled = false ∨ job.maxConcurrency ≤ db.activeOfJob job.jobId ∨
        Conflicts db job.jobId freshId now := by
  have hget : db.getJob job.jobId = some job := hwf.jobKey.lookup_eq_some_iff.mpr ⟨hjob, rfl⟩
  rw [triggerTaskRunNow, requiredArgument, if_neg hne, hname]
  simp only [bind, Except.bind, require]
  cases hpaused : db.paused with
  | true => simp
  | false =>
    cases henabled : job.enabled with
    | false => simp [hget, henabled]
    | true =>
      by_cases hroom : (db.activeOfJob job.jobId : ℤ) < job.maxConcurrency
      · rw [← insertRun_error_iff hget]
        simp only [hget, henabled, hroom, decide_true, Bool.not_false, if_true, not_le.mpr hroom]
        cases db.insertRun (queuedRun freshId job.jobId (toIsoUtc now) (toIsoUtc now) none none) with
        | error error => simp
        | ok db' => simp [pure, Except.pure]
      · simp [hget, henabled, hroom, not_lt.mp hroom]

/-- Admission to a busy scope, in every reachable state: all paths agree exactly if `trigger_task_run_now` fails for a
reason of its own, a paused scheduler, a disabled job, `max_concurrency` active runs, or a row that collides. -/
theorem cronAdmission_agrees_iff (env : ScheduleEnv) (calls : List CronCall) :
    let db := (run (CronRun.step env) CronRun.start calls).db
    ∀ job ∈ db.jobs, ∀ key, job.concurrencyKey = some key →
    ∀ r ∈ db.runs, r.state.isActive = true → db.inScope key r = true →
    ∀ (e : EnqueueDue) (t : TriggerCronRun) (argument freshId : String) (now : DateTime),
      ¬ EndsOnRecovery db e.now r → t.jobId = job.jobId → strip argument = job.jobId → strip argument ≠ "" →
      (((∀ db' rows, enqueueDueCronRuns env db e = .ok (db', rows) → InsertsNone db db' job.jobId) ∧
        (∃ error, triggerCronRun env db t = .error error) ∧
        ∃ error, triggerTaskRunNow db argument freshId now = .error error) ↔
      (db.paused = true ∨ job.enabled = false ∨ job.maxConcurrency ≤ db.activeOfJob job.jobId ∨
        Conflicts db job.jobId freshId now)) := by
  intro db job hjob key hkey r hr hactive hscope e t argument freshId now hlasting ht hname hne
  obtain ⟨events, -, hpath, -⟩ := CronRun.run_path env CronRun.start_wf calls
  have hwf : CronWf db := CronPath.wf CronRun.start_wf hpath
  rw [triggerTaskRunNow_error_iff hwf hjob hname hne, ← and_assoc, and_iff_right]
  constructor
  · intro db' rows hok
    exact enqueueDueCronRuns_none hwf hjob hkey hr hactive hscope hlasting hok
  · exact triggerCronRun_busy hwf env hjob hkey ⟨r, hr, hactive, hscope⟩ ht

def sharedScope : List CronCall :=
  [.addCronJob (hourlyJob "a" 3 (some "k")), .addCronJob (hourlyJob "b" 3 (some "k")),
    .triggerCronRun { jobId := "a", freshId := "r", now := clock 0 }]

/-- The second job gets a run while the first keeps the scope busy. -/
theorem cronAdmission_disagrees_sharedScope :
    let σ := run (CronRun.step plainEnv) CronRun.start sharedScope
    (∃ job ∈ σ.db.jobs, job.jobId = "b" ∧ job.concurrencyKey = some "k") ∧ Busy σ.db "k" ∧
      ¬ InsertsNone σ.db (σ.step plainEnv (.triggerTaskRunNow "b" "s" (clock 1))).db "b" := by
  decide +kernel

/-- The first job is at its own limit, so all three paths agree. -/
theorem cronAdmission_agrees_sharedScope :
    let db := (run (CronRun.step plainEnv) CronRun.start sharedScope).db
    (∃ error, triggerCronRun plainEnv db { jobId := "a", freshId := "s", now := clock 1 } = .error error) ∧
      ∃ error, triggerTaskRunNow db "a" "s" (clock 1) = .error error := by
  intro db
  have hjobs : ∃ job ∈ db.jobs, job.jobId = "a" ∧ job.concurrencyKey = some "k" ∧
      job.maxConcurrency ≤ db.activeOfJob job.jobId := by decide +kernel
  have hruns : ∃ r ∈ db.runs, r.state = .queued ∧ db.inScope "k" r = true := by decide +kernel
  obtain ⟨job, hjob, hid, hkey, hlimit⟩ := hjobs
  obtain ⟨r, hr, hqueued, hscope⟩ := hruns
  have hlasting : ¬ EndsOnRecovery db (clock 1) r := by
    intro hends
    have hexpired := hends.1
    rw [isExpired, hqueued] at hexpired
    cases hexpired
  have hname : strip "a" = job.jobId := by
    rw [hid]
    decide +kernel
  have hagrees := cronAdmission_agrees_iff plainEnv sharedScope job hjob "k" hkey r hr
    (by rw [hqueued]; rfl) hscope { daemonId := "d", freshIds := fun _ _ => "", now := clock 1 }
    { jobId := "a", freshId := "s", now := clock 1 } "a" "s" (clock 1) hlasting hid.symm hname (by decide +kernel)
  exact (hagrees.mpr (.inr (.inr (.inl hlimit)))).2

end OpenMinion.CronAdmission
