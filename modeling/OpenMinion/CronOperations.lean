import OpenMinion.CronTransitions

/-!
# The cron operations as paths

One lemma per operation: when it succeeds, it is a path of cron steps with the events that
its result shows. A failed operation is rolled back.
-/
namespace OpenMinion.CronOperations
open CronSchedules CronStore CronTables CronTransitions IsoTimestamps JsonValues KeyedTables PythonText
open SessionTables TransitionRuns

variable {db db' : CronDb}

private theorem jobsStep {p : CronJobRow → Bool} {f : CronJobRow → CronJobRow}
    (same : ∀ j, SameJob j (f j)) : CronPath db [] (db.updateJobs p f) := .single (.updateJobs same)

private theorem silentStep {p : CronRunRow → Bool} {f : CronRunRow → CronRunRow}
    (runId : ∀ r, (f r).runId = r.runId) (jobId : ∀ r, (f r).jobId = r.jobId)
    (move : ∀ r ∈ db.runs, p r = true → RunMove db [] r (f r)) : CronStep db [] (db.updateRuns p f) :=
  .updateRuns runId jobId move (by simp) (by simp)

private theorem singleStep (hwf : CronWf db) {r : CronRunRow} (hr : r ∈ db.runs)
    {p : CronRunRow → Bool} {f : CronRunRow → CronRunRow} {e : CronEvent} (he : e.runId = some r.runId)
    (hp : p r = true) (honly : ∀ s, p s = true → s.runId = r.runId)
    (runId : ∀ r, (f r).runId = r.runId) (jobId : ∀ r, (f r).jobId = r.jobId)
    (move : RunMove db [e] r (f r)) : CronStep db [e] (db.updateRuns p f) := by
  refine .updateRuns runId jobId ?_ ?_ ?_
  · intro s hs hps
    rw [hwf.runKey.eq_of_key_eq hs hr (honly s hps)]
    exact move
  · intro s hs hps e' he'
    rw [List.mem_singleton.mp he', he]
    intro h
    rw [hwf.runKey.eq_of_key_eq hs hr (Option.some.inj h).symm, hp] at hps
    cases hps
  · intro e' he'
    rw [List.mem_singleton.mp he']
    exact ⟨r, hr, hp, he⟩

private theorem row_jobId (a : AddCronJob) (nextDue : Option String) : (a.row nextDue).jobId = a.jid := by
  rw [AddCronJob.row]

private theorem row_wf (a : AddCronJob) (nextDue : Option String) : JobWf (a.row nextDue) := by
  refine ⟨le_max_left _ _, ?_⟩
  intro key hkey
  simp only [AddCronJob.row] at hkey
  exact stripOrNone_eq_some hkey

theorem addCronJob_path {env : ScheduleEnv} {a : AddCronJob} {jobId : String}
    (h : addCronJob env db a = .ok (db', jobId)) : CronPath db [] db' := by
  rw [addCronJob] at h
  simp only [bind_eq_ok, require_eq_ok, Option.isNone_iff_eq_none] at h
  obtain ⟨_, -, nextDue, -, _, hfresh, h⟩ := h
  obtain ⟨rfl, -⟩ := Prod.mk.inj (Except.ok.inj h)
  rw [← row_jobId a nextDue] at hfresh
  exact .single (.addJob hfresh (row_wf a nextDue))

theorem setCronJobEnabled_path {env : ScheduleEnv} {s : SetCronJobEnabled}
    (h : setCronJobEnabled env db s = .ok (db', ())) : CronPath db [] db' := by
  rw [setCronJobEnabled] at h
  obtain ⟨jobId, -, h⟩ := bind_eq_ok.mp h
  cases hjob : db.getJob jobId with
  | none =>
    rw [hjob] at h
    cases h
  | some job =>
    rw [hjob] at h
    obtain ⟨nextDue, -, h⟩ := bind_eq_ok.mp h
    obtain ⟨rfl, -⟩ := Prod.mk.inj (Except.ok.inj h)
    split
    · refine .snoc (jobsStep ?_) (silentStep ?_ ?_ ?_)
      · exact fun j => ⟨rfl, rfl, rfl⟩
      · exact fun _ => rfl
      · exact fun _ => rfl
      · intro r _ hr
        have hqueued : r.state = .queued := (of_decide_eq_true hr).2
        exact .closed rfl (by rw [hqueued]; rfl) rfl rfl
    · exact jobsStep fun j => ⟨rfl, rfl, rfl⟩

theorem deleteCronJob_path {jobId : String} (h : deleteCronJob db jobId = .ok (db', ())) :
    CronPath db [] db' := by
  obtain ⟨jid, -, h⟩ := bind_eq_ok.mp h
  obtain ⟨rfl, -⟩ := Prod.mk.inj (Except.ok.inj h)
  exact .single (.deleteJob jid)

theorem replaceCronJobPayload_path {jobId : String} {payload : Dict} {now : DateTime}
    (h : replaceCronJobPayload db jobId payload now = .ok (db', ())) : CronPath db [] db' := by
  rw [replaceCronJobPayload] at h
  simp only [bind_eq_ok] at h
  obtain ⟨jid, -, _, -, h⟩ := h
  obtain ⟨rfl, -⟩ := Prod.mk.inj (Except.ok.inj h)
  exact jobsStep fun j => ⟨rfl, rfl, rfl⟩

theorem updateTaskCronJob_path {env : ScheduleEnv} {u : UpdateTaskCronJob}
    (h : updateTaskCronJob env db u = .ok (db', ())) : CronPath db [] db' := by
  rw [updateTaskCronJob] at h
  obtain ⟨_, -, h⟩ := bind_eq_ok.mp h
  obtain ⟨_, -, h⟩ := bind_eq_ok.mp h
  cases hjob : db.getJob (strip u.jobId) with
  | none =>
    rw [hjob] at h
    cases h
  | some job =>
    rw [hjob] at h
    simp only [bind_eq_ok] at h
    obtain ⟨_, -, _, -, nextDue, -, _, -, h⟩ := h
    obtain ⟨rfl, -⟩ := Prod.mk.inj (Except.ok.inj h)
    exact jobsStep fun j => ⟨rfl, rfl, rfl⟩

theorem setCronSchedulerControl_path {paused : Bool} {reason : Option String} {actor expected : String}
    {now : DateTime} (h : setCronSchedulerControl db paused reason actor expected now = .ok (db', ())) :
    CronPath db [] db' := by
  rw [setCronSchedulerControl] at h
  simp only [bind_eq_ok] at h
  obtain ⟨_, -, h⟩ := h
  obtain ⟨rfl, -⟩ := Prod.mk.inj (Except.ok.inj h)
  exact .single (.other rfl rfl)

theorem mem_expiredRuns {nowIso : String} {limit : ℤ} {r : CronRunRow} {j : CronJobRow}
    (h : (r, j) ∈ expiredRuns db nowIso limit) :
    r ∈ db.runs ∧ db.jobOf r = some j ∧ r.state = .running ∧ r.leaseExpiresAt.any (· ≤ nowIso) = true := by
  rw [expiredRuns] at h
  have hmem := (List.perm_insertionSort _ _).mem_iff.mp (List.mem_of_mem_take h)
  obtain ⟨s, hs, hbind⟩ := List.mem_filterMap.mp hmem
  obtain ⟨k, hk, hif⟩ := Option.bind_eq_some_iff.mp hbind
  split at hif
  · next hexpired =>
    obtain ⟨rfl, rfl⟩ := Prod.mk.inj (Option.some.inj hif)
    exact ⟨hs, hk, hexpired⟩
  · cases hif

theorem orDefault_of_pos {value fallback : ℤ} (h : 1 ≤ value) : orDefault value fallback = value := by
  rw [orDefault, if_neg (by omega)]

theorem recoveryLimit_eq {j : CronJobRow} (h : JobWf j) : recoveryLimit j = j.maxAttempts := by
  rw [recoveryLimit, orDefault_of_pos h.maxAttempts, max_eq_right h.maxAttempts]

/-- What the recovery loop has done so far: the runs that are still running are as they were. -/
structure Recovering (db db' : CronDb) : Prop where
  path : CronPath db [] db'
  jobs : db'.jobs = db.jobs
  running : ∀ r ∈ db'.runs, r.state = .running → r ∈ db.runs

theorem Recovering.update {acc : CronDb} (h : Recovering db acc) {p : CronRunRow → Bool}
    {f : CronRunRow → CronRunRow} (hstep : CronStep acc [] (acc.updateRuns p f))
    (hf : ∀ r, (f r).state ≠ .running) : Recovering db (acc.updateRuns p f) := by
  refine ⟨h.path.snoc hstep, h.jobs, ?_⟩
  intro r' hr' hrun
  obtain ⟨r, hr, rfl⟩ := mem_updateWhere.mp hr'
  split at hrun
  · exact absurd hrun (hf r)
  · next hp =>
    rw [if_neg hp]
    exact h.running r hr hrun

theorem recoverRun_step (hwf : CronWf db) {now : DateTime} {acc acc' : CronDb × List RecoveredRun}
    {r : CronRunRow} {j : CronJobRow} (hr : r ∈ db.runs) (hjob : db.jobOf r = some j)
    (hacc : Recovering db acc.1) (h : recoverRun now acc (r, j) = .ok acc') : Recovering db acc'.1 := by
  have hsame : ∀ s ∈ acc.1.runs, isRunning r.runId s = true → s.state = .running ∧ s = r := by
    intro s hs hrun
    obtain ⟨hid, hstate⟩ := of_decide_eq_true hrun
    exact ⟨hstate, hwf.runKey.eq_of_key_eq (hacc.running s hs hstate) hr hid⟩
  simp only [recoverRun] at h
  split at h
  · obtain rfl := Except.ok.inj h
    refine hacc.update (silentStep (fun _ => rfl) (fun _ => rfl) ?_) (by simp [failedRun])
    intro s hs hp
    exact .closed rfl (by rw [(hsame s hs hp).1]; rfl) rfl rfl
  · next hlimit =>
    split at h
    · cases h
    · obtain rfl := Except.ok.inj h
      refine hacc.update (silentStep (fun _ => rfl) (fun _ => rfl) ?_) (by simp [requeuedRun])
      intro s hs hp
      obtain ⟨hstate, rfl⟩ := hsame s hs hp
      refine .requeued rfl hstate rfl rfl ?_
      intro k hk
      rw [CronDb.jobOf_of_jobs hacc.jobs] at hk
      obtain rfl := Option.some.inj (hjob.symm.trans hk)
      rw [recoveryLimit_eq (hwf.jobOf hjob)] at hlimit
      exact not_le.mp hlimit

theorem recoverExpiredCronRuns_ok (hwf : CronWf db) {now : DateTime} {limit : ℤ}
    {recovered : List RecoveredRun} (h : recoverExpiredCronRuns db now limit = .ok (db', recovered)) :
    Recovering db db' := by
  rw [recoverExpiredCronRuns] at h
  refine foldlM_invariant (J := fun acc => Recovering db acc.1) ?_ ⟨.nil db, rfl, fun r hr _ => hr⟩ h
  intro acc row hrow acc' hacc hok
  obtain ⟨hr, hjob, -, -⟩ := mem_expiredRuns hrow
  exact recoverRun_step hwf hr hjob hacc hok

theorem insertRun_path {row : CronRunRow} (hstate : row.state ≠ .running) (hattempts : row.attempts = 0)
    (h : db.insertRun row = .ok db') : CronPath db [] db' := by
  rw [CronDb.insertRun] at h
  split at h
  · next hins =>
    obtain rfl := Except.ok.inj h
    rw [Bool.and_eq_true] at hins
    exact .single (.insertRun hins.1 hstate hattempts)
  · cases h

theorem insertRunIfNew_path {row : CronRunRow} {inserted : Bool} (hstate : row.state ≠ .running)
    (hattempts : row.attempts = 0) (h : db.insertRunIfNew row = .ok (db', inserted)) :
    CronPath db [] db' := by
  rw [CronDb.insertRunIfNew] at h
  split at h
  · obtain ⟨rfl, -⟩ := Prod.mk.inj (Except.ok.inj h)
    exact .nil db
  · split at h
    · next hins =>
      obtain ⟨rfl, -⟩ := Prod.mk.inj (Except.ok.inj h)
      exact .single (.insertRun hins hstate hattempts)
    · cases h

theorem persistDueDecision_path {job : CronJobRow} {duePoints : List DateTime} {nextDue : Option DateTime}
    {now freshId : String} (h : persistDueDecision db job duePoints nextDue now freshId = .ok db') :
    CronPath db [] db' := by
  simp only [persistDueDecision] at h
  split at h
  · obtain ⟨⟨db₂, _⟩, hinsert, h⟩ := bind_eq_ok.mp h
    obtain rfl := Except.ok.inj h
    have hinserted := insertRunIfNew_path (by simp [missedRun]) rfl hinsert
    refine .snoc (.trans (jobsStep ?_) hinserted) (.updateJobs ?_)
    · exact fun j => ⟨rfl, rfl, rfl⟩
    · exact fun j => ⟨rfl, rfl, rfl⟩
  · obtain rfl := Except.ok.inj h
    exact jobsStep fun j => ⟨rfl, rfl, rfl⟩

theorem insertDueRuns_path {e : EnqueueDue} {owner leaseExpires jobId : String}
    {acc acc' : CronDb × List CronRunRow} {due : DateTime × ℕ}
    (h : insertDueRuns e owner leaseExpires jobId acc due = .ok acc') : CronPath acc.1 [] acc'.1 := by
  rw [insertDueRuns] at h
  obtain ⟨⟨db₁, inserted⟩, hinsert, h⟩ := bind_eq_ok.mp h
  obtain rfl := Except.ok.inj h
  exact insertRunIfNew_path (by simp [queuedRun]) rfl hinsert

theorem enqueueJob_path {env : ScheduleEnv} {e : EnqueueDue} {owner leaseExpires : String}
    {acc acc' : CronDb × List CronRunRow} {job : CronJobRow}
    (h : enqueueJob env e owner leaseExpires acc job = .ok acc') : CronPath acc.1 [] acc'.1 := by
  simp only [enqueueJob] at h
  split at h
  · obtain rfl := Except.ok.inj h
    exact jobsStep fun j => ⟨rfl, rfl, rfl⟩
  · generalize (if stripOr job.concurrencyKey ≠ "" then 1 else (max 1 job.maxConcurrency).toNat) =
      maxForJob at h
    split at h
    · obtain rfl := Except.ok.inj h
      exact .nil _
    · obtain ⟨⟨selected, nextDue⟩, -, h⟩ := bind_eq_ok.mp h
      obtain ⟨db₁, hdecision, h⟩ := bind_eq_ok.mp h
      refine foldlM_invariant (J := fun b => CronPath acc.1 [] b.1) ?_ (persistDueDecision_path hdecision) h
      intro b due _ b' hb hok
      exact hb.trans (insertDueRuns_path hok)

theorem enqueueDueCronRuns_path (hwf : CronWf db) {env : ScheduleEnv} {e : EnqueueDue}
    {rows : List CronRunRow} (h : enqueueDueCronRuns env db e = .ok (db', rows)) : CronPath db [] db' := by
  rw [enqueueDueCronRuns] at h
  obtain ⟨owner, -, h⟩ := bind_eq_ok.mp h
  obtain ⟨leaseExpires, -, h⟩ := bind_eq_ok.mp h
  obtain ⟨⟨db₁, recovered⟩, hrecover, h⟩ := bind_eq_ok.mp h
  have hpath := (recoverExpiredCronRuns_ok hwf hrecover).path
  change enqueueRecovered env e owner (toIsoUtc leaseExpires) db₁ = _ at h
  rw [enqueueRecovered] at h
  split at h
  · obtain ⟨rfl, -⟩ := Prod.mk.inj (Except.ok.inj h)
    exact hpath
  · refine foldlM_invariant (J := fun b => CronPath db [] b.1) ?_ hpath h
    intro b job _ b' hb hok
    exact hb.trans (enqueueJob_path hok)

theorem triggerCronRun_path {env : ScheduleEnv} {t : TriggerCronRun} {runId : String}
    (h : triggerCronRun env db t = .ok (db', runId)) : CronPath db [] db' := by
  rw [triggerCronRun] at h
  cases hjob : db.getJob t.jobId with
  | none =>
    rw [hjob] at h
    cases h
  | some job =>
    rw [hjob] at h
    simp only [bind_eq_ok] at h
    obtain ⟨due, -, expires, -, _, -, db₁, hinsert, h⟩ := h
    obtain ⟨rfl, -⟩ := Prod.mk.inj (Except.ok.inj h)
    exact insertRun_path (by simp [queuedRun]) rfl hinsert

theorem triggerTaskRunNow_path {jobId freshId runId : String} {now : DateTime}
    (h : triggerTaskRunNow db jobId freshId now = .ok (db', runId)) : CronPath db [] db' := by
  rw [triggerTaskRunNow] at h
  obtain ⟨jid, -, h⟩ := bind_eq_ok.mp h
  obtain ⟨_, -, h⟩ := bind_eq_ok.mp h
  cases hjob : db.getJob jid with
  | none =>
    rw [hjob] at h
    cases h
  | some job =>
    rw [hjob] at h
    simp only [bind_eq_ok] at h
    obtain ⟨_, -, _, -, db₁, hinsert, h⟩ := h
    obtain ⟨rfl, -⟩ := Prod.mk.inj (Except.ok.inj h)
    exact insertRun_path (by simp [queuedRun]) rfl hinsert

/-- The event of a run that `acquire_cron_runs` returns. -/
def acquiredEvent (r : CronRunRow) : CronEvent := .acquired r.runId ⟨r.leaseOwner.getD "", r.attempts⟩

theorem mem_acquireCandidates {owner nowIso : String} {limit : ℕ} {r : CronRunRow}
    (h : r ∈ acquireCandidates db owner nowIso limit) : r ∈ db.runs ∧ ∃ j, db.jobOf r = some j := by
  have hmem := (List.perm_insertionSort _ _).mem_iff.mp (List.mem_of_mem_take h)
  obtain ⟨hr, hfree⟩ := List.mem_filter.mp hmem
  simp only [Bool.and_eq_true, Option.any_eq_true] at hfree
  obtain ⟨⟨⟨-, j, hj, -⟩, -⟩, -⟩ := hfree
  exact ⟨hr, j, hj⟩

/-- What the acquisition loop has done so far: the runs that are still queued are as they were. -/
structure Acquiring (db : CronDb) (acc : CronDb × List CronRunRow) : Prop where
  path : CronPath db (acc.2.map acquiredEvent) acc.1
  jobs : acc.1.jobs = db.jobs
  queued : ∀ r ∈ acc.1.runs, r.state = .queued → r ∈ db.runs

theorem acquireRun_step (hwf : CronWf db) {owner leaseExpires now : String}
    {acc : CronDb × List CronRunRow} {row : CronRunRow} (hrow : row ∈ db.runs)
    (hjob : ∃ j, db.jobOf row = some j) (hacc : Acquiring db acc) :
    Acquiring db (acquireRun owner leaseExpires now acc row) := by
  rw [acquireRun]
  split
  · exact hacc
  · next hfree =>
    simp only [Bool.or_eq_true, Bool.not_eq_true', not_or, Bool.not_eq_true, Bool.not_eq_false,
      List.any_eq_true] at hfree
    obtain ⟨hscope, s, hs, hqueued⟩ := hfree
    obtain ⟨hid, hstate⟩ := of_decide_eq_true hqueued
    obtain rfl := hwf.runKey.eq_of_key_eq (hacc.queued s hs hstate) hrow hid
    have hwf' := CronPath.wf hwf hacc.path
    have hget : (acc.1.updateRuns (isQueued s.runId) (promotedRun owner leaseExpires now)).getRun s.runId =
        some (promotedRun owner leaseExpires now s) := by
      have hlookup := hwf'.runKey.lookup_eq_some_iff.mpr ⟨hs, rfl⟩
      rw [CronDb.getRun_updateRuns (f := promotedRun owner leaseExpires now) (fun _ => rfl), CronDb.getRun, hlookup]
      simp [hqueued]
    obtain ⟨j, hj⟩ := hjob
    rw [← CronDb.jobOf_of_jobs hacc.jobs] at hj
    have hstep : CronStep acc.1 [acquiredEvent (promotedRun owner leaseExpires now s)]
        (acc.1.updateRuns (isQueued s.runId) (promotedRun owner leaseExpires now)) := by
      refine singleStep hwf' hs rfl hqueued ?_ (fun _ => rfl) (fun _ => rfl) ?_
      · exact fun t ht => (of_decide_eq_true ht).1
      · exact .acquired rfl hstate hj hscope rfl rfl rfl
    refine ⟨?_, hacc.jobs, ?_⟩
    · simp only [hget, Option.toList_some, List.map_append]
      exact hacc.path.trans (.single hstep)
    · intro t' ht' hqueued'
      obtain ⟨t, ht, rfl⟩ := mem_updateWhere.mp ht'
      split at hqueued'
      · cases hqueued'
      · next hp =>
        rw [if_neg hp]
        exact hacc.queued t ht hqueued'

theorem acquireCronRuns_path (hwf : CronWf db) {a : AcquireRuns} {rows : List CronRunRow}
    (h : acquireCronRuns db a = .ok (db', rows)) : CronPath db (rows.map acquiredEvent) db' := by
  rw [acquireCronRuns] at h
  obtain ⟨owner, -, h⟩ := bind_eq_ok.mp h
  obtain ⟨leaseExpires, -, h⟩ := bind_eq_ok.mp h
  obtain ⟨⟨db₁, recovered⟩, hrecover, h⟩ := bind_eq_ok.mp h
  have hpath := (recoverExpiredCronRuns_ok hwf hrecover).path
  have hwf₁ := CronPath.wf hwf hpath
  have hacquired : acquireRecovered a owner (toIsoUtc leaseExpires) db₁ = (db', rows) := Except.ok.inj h
  rw [acquireRecovered] at hacquired
  split at hacquired
  · obtain ⟨rfl, rfl⟩ := Prod.mk.inj hacquired
    exact hpath
  · have hloop : Acquiring db₁ (db', rows) := by
      rw [← hacquired]
      refine List.foldlRecOn _ _ ⟨.nil db₁, rfl, fun r hr _ => hr⟩ ?_
      intro acc hacc row hrow
      obtain ⟨hr, hjob⟩ := mem_acquireCandidates hrow
      exact acquireRun_step hwf₁ hr hjob hacc
    exact hpath.trans hloop.path

theorem fencedRun_eq_some {runId : String} {fence : Option RunFence} {r : CronRunRow}
    (h : fencedRun db runId fence = some r) :
    r ∈ db.runs ∧ r.runId = runId ∧ ∀ f ∈ fence, f.holds r = true := by
  have hfound := List.find?_some h
  simp only [Bool.and_eq_true, decide_eq_true_eq, Option.all_eq_true] at hfound
  exact ⟨List.mem_of_find?_eq_some h, hfound⟩

theorem renewCronRunLease_path {n : RenewRun} {renewed : Bool}
    (h : renewCronRunLease db n = .ok (db', renewed)) : CronPath db [] db' := by
  rw [renewCronRunLease] at h
  obtain ⟨rid, -, h⟩ := bind_eq_ok.mp h
  obtain ⟨owner, -, h⟩ := bind_eq_ok.mp h
  obtain ⟨expires, -, h⟩ := bind_eq_ok.mp h
  obtain ⟨rfl, -⟩ := Prod.mk.inj (Except.ok.inj h)
  refine .single (silentStep (fun _ => rfl) (fun _ => rfl) ?_)
  exact fun r _ _ => .kept rfl rfl rfl (by simp)

theorem changeDeliveryTargets_path {d : DeliveryTarget} {change : List String → String → Option (List String)}
    {changed : Bool} (h : changeDeliveryTargets db d change = .ok (db', changed)) : CronPath db [] db' := by
  rw [changeDeliveryTargets] at h
  obtain ⟨rid, -, h⟩ := bind_eq_ok.mp h
  obtain ⟨target, -, h⟩ := bind_eq_ok.mp h
  obtain ⟨fence, -, h⟩ := bind_eq_ok.mp h
  cases hrun : fencedRun db rid fence with
  | none =>
    rw [hrun] at h
    simp only at h
    split at h
    · obtain ⟨rfl, -⟩ := Prod.mk.inj (Except.ok.inj h)
      exact .nil db
    · cases h
  | some r =>
    rw [hrun] at h
    simp only at h
    split at h
    · obtain ⟨rfl, -⟩ := Prod.mk.inj (Except.ok.inj h)
      exact .nil db
    · obtain ⟨rfl, -⟩ := Prod.mk.inj (Except.ok.inj h)
      refine .single (silentStep (fun _ => rfl) (fun _ => rfl) ?_)
      exact fun r _ _ => .kept rfl rfl rfl (by simp)

/-- What the result of `retry_cron_run` shows: a fenced retry that ends its run reports an outcome. -/
def retryEvents (t : RetryRun) (result : Option CronRunRow) : List CronEvent :=
  match runFence t.daemonId t.expectedAttempts, result with
  | .ok (some fence), some row => if row.state.isTerminal then [.outcome row.runId fence] else []
  | _, _ => []

def sameAcquisition (r s : CronRunRow) : Bool :=
  isRunning r.runId s && s.leaseOwner = some (r.leaseOwner.getD "") && s.attempts = r.attempts

private theorem sameAcquisition_only {r s : CronRunRow} (h : sameAcquisition r s = true) :
    s.runId = r.runId ∧ s.state = .running := by
  simp only [sameAcquisition, Bool.and_eq_true] at h
  exact of_decide_eq_true h.1.1

private theorem sameAcquisition_self {r : CronRunRow} {fence : RunFence} (h : fence.holds r = true) :
    sameAcquisition r r = true := by
  simp only [RunFence.holds, Bool.and_eq_true, decide_eq_true_eq] at h
  simp [sameAcquisition, isRunning, h.1.1, h.1.2]

private theorem retryLimit_eq {j : CronJobRow} (h : JobWf j) : retryLimit (some j) = j.maxAttempts := by
  rw [retryLimit, Option.map_some, Option.getD_some, orDefault_of_pos h.maxAttempts,
    max_eq_right h.maxAttempts]

theorem retryRun_ok (hwf : CronWf db) {r : CronRunRow} {error : Dict} {now : DateTime}
    (h : retryRun db r error now = .ok db') :
    (∃ e, db' = db.updateRuns (sameAcquisition r) (failedRun e (toIsoUtc now))) ∨
      (∀ j, db.jobOf r = some j → (r.attempts : ℤ) < j.maxAttempts) ∧
        ∃ available e, db' = db.updateRuns (sameAcquisition r) (requeuedRun available e (toIsoUtc now)) := by
  simp only [retryRun] at h
  split at h
  · exact .inl ⟨_, (Except.ok.inj h).symm⟩
  · next hlimit =>
    split at h
    · cases h
    · refine .inr ⟨?_, _, _, (Except.ok.inj h).symm⟩
      intro j hj
      rw [hj, retryLimit_eq (hwf.jobOf hj)] at hlimit
      exact not_le.mp hlimit

theorem retryCronRun_path (hwf : CronWf db) {t : RetryRun} {result : Option CronRunRow}
    (h : retryCronRun db t = .ok (db', result)) : CronPath db (retryEvents t result) db' := by
  rw [retryCronRun] at h
  obtain ⟨rid, -, h⟩ := bind_eq_ok.mp h
  obtain ⟨fence, hfence, h⟩ := bind_eq_ok.mp h
  rw [retryEvents.eq_def, hfence]
  cases hrun : (fencedRun db rid fence).filter fun r => r.state = .running with
  | none =>
    rw [hrun] at h
    obtain ⟨rfl, rfl⟩ := Prod.mk.inj (Except.ok.inj h)
    cases fence with
    | none => exact .nil db
    | some f => exact .nil db
  | some r =>
    rw [hrun] at h
    obtain ⟨db₁, hretry, h⟩ := bind_eq_ok.mp h
    obtain ⟨rfl, rfl⟩ := Prod.mk.inj (Except.ok.inj h)
    obtain ⟨hsome, hrunning⟩ := Option.filter_eq_some_iff.mp hrun
    obtain ⟨hr, rfl, hholds⟩ := fencedRun_eq_some hsome
    have hget : ∀ f : CronRunRow → CronRunRow, (∀ s, (f s).runId = s.runId) → sameAcquisition r r = true →
        (db.updateRuns (sameAcquisition r) f).getRun r.runId = some (f r) := by
      intro f hf hself
      rw [CronDb.getRun_updateRuns hf, CronDb.getRun, hwf.runKey.lookup_eq_some_iff.mpr ⟨hr, rfl⟩]
      simp [hself]
    rcases retryRun_ok hwf hretry with ⟨e, rfl⟩ | ⟨hbelow, available, e, rfl⟩
    · cases fence with
      | none =>
        refine .single (silentStep (fun _ => rfl) (fun _ => rfl) ?_)
        intro s hs hsame
        exact .closed rfl (by rw [(sameAcquisition_only hsame).2]; rfl) rfl rfl
      | some f =>
        have hself := sameAcquisition_self (hholds f rfl)
        rw [hget (failedRun e (toIsoUtc t.now)) (fun _ => rfl) hself]
        refine .single (singleStep hwf hr rfl hself ?_ (fun _ => rfl) (fun _ => rfl) ?_)
        · exact fun s hs => (sameAcquisition_only hs).1
        · exact .reported rfl (hholds f rfl) rfl rfl
    · have hstep : CronStep db []
          (db.updateRuns (sameAcquisition r) (requeuedRun available e (toIsoUtc t.now))) := by
        refine silentStep (fun _ => rfl) (fun _ => rfl) ?_
        intro s hs hsame
        obtain ⟨hid, hstate⟩ := sameAcquisition_only hsame
        rw [hwf.runKey.eq_of_key_eq hs hr hid] at hstate ⊢
        exact .requeued rfl hstate rfl rfl hbelow
      cases fence with
      | none => exact .single hstep
      | some f =>
        rw [hget (requeuedRun available e (toIsoUtc t.now)) (fun _ => rfl)
          (sameAcquisition_self (hholds f rfl))]
        exact .single hstep

/-- What the result of `finish_cron_run` shows. -/
def finishEvents (f : FinishRun) (result : Option CronRunRow) : List CronEvent :=
  match runFence f.daemonId f.expectedAttempts, result with
  | .ok (some fence), some row => [.outcome row.runId fence]
  | .ok none, some row => [.overridden row.runId]
  | _, _ => []

private theorem persistScopeWatermark_path (f : FinishRun) (job : CronJobRow) (runId : String) :
    CronPath db [] (persistScopeWatermark db f job runId) := by
  rw [persistScopeWatermark]
  split
  · split
    · exact .single (.other rfl rfl)
    · exact .nil db
  · exact .nil db

private theorem finalizeOneTimeJob_path (f : FinishRun) (job : CronJobRow) :
    CronPath db [] (finalizeOneTimeJob db f job) := by
  rw [finalizeOneTimeJob]
  split
  · split
    · exact .single (.deleteJob job.jobId)
    · exact jobsStep fun j => ⟨rfl, rfl, rfl⟩
  · exact .nil db

theorem finishJob_path (f : FinishRun) (job : CronJobRow) (runId : String) :
    CronPath db [] (finishJob db f job runId) := by
  refine .trans (.trans (jobsStep ?_) (persistScopeWatermark_path f job runId)) (finalizeOneTimeJob_path f job)
  exact fun j => ⟨rfl, rfl, rfl⟩

theorem finishCronRun_path (hwf : CronWf db) {f : FinishRun} {result : Option CronRunRow}
    (h : finishCronRun db f = .ok (db', result)) : CronPath db (finishEvents f result) db' := by
  rw [finishCronRun] at h
  obtain ⟨_, hterminal, h⟩ := bind_eq_ok.mp h
  rw [require_eq_ok] at hterminal
  obtain ⟨rid, -, h⟩ := bind_eq_ok.mp h
  obtain ⟨fence, hfence, h⟩ := bind_eq_ok.mp h
  rw [finishEvents.eq_def, hfence]
  cases hrun : fencedRun db rid fence with
  | none =>
    rw [hrun] at h
    obtain ⟨rfl, rfl⟩ := Prod.mk.inj (Except.ok.inj h)
    cases fence with
    | none => exact .nil db
    | some g => exact .nil db
  | some r =>
    obtain ⟨hr, rfl, hholds⟩ := fencedRun_eq_some hrun
    rw [hrun] at h
    have hp : ∃ p : CronRunRow → Bool,
        (fun s => decide (s.runId = r.runId) && fence.all fun g => g.holds s) = p ∧ p r = true ∧
          ∀ s, p s = true → s.runId = r.runId := by
      refine ⟨_, rfl, by simpa [Option.all_eq_true] using hholds, ?_⟩
      intro s hs
      simp only [Bool.and_eq_true, decide_eq_true_eq] at hs
      exact hs.1
    obtain ⟨p, hpdef, hp, honly⟩ := hp
    rw [hpdef] at h
    obtain ⟨hdb, hresult⟩ := Prod.mk.inj (Except.ok.inj h)
    rw [hdb] at hresult
    have hjob : CronPath (db.updateRuns p (finishedRun f)) [] db' := by
      rw [← hdb]
      split
      · exact finishJob_path f _ _
      · exact .nil _
    -- finishing changes jobs and job ids of runs, so the run is still found under its id
    obtain ⟨row, hrow⟩ : ∃ row, result = some row ∧ row.runId = r.runId := by
      obtain ⟨s, hs, hid⟩ := CronPath.run_kept hjob (by simp) (mem_updateWhere.mpr ⟨r, hr, rfl⟩)
      rw [if_pos hp] at hid
      cases hresult' : result with
      | none =>
        rw [hresult'] at hresult
        exact absurd hid (lookup_eq_none.mp hresult s hs)
      | some row => exact ⟨row, rfl, (lookup_some (hresult.trans hresult')).2⟩
    obtain ⟨rfl, hid⟩ := hrow
    cases fence with
    | none =>
      change CronPath db [.overridden row.runId] db'
      rw [hid]
      refine .trans (.single (singleStep hwf hr rfl hp honly ?_ ?_ ?_)) hjob
      · exact fun _ => rfl
      · exact fun _ => rfl
      · exact .overridden rfl hterminal rfl
    | some g =>
      change CronPath db [.outcome row.runId g] db'
      rw [hid]
      refine .trans (.single (singleStep hwf hr rfl hp honly ?_ ?_ ?_)) hjob
      · exact fun _ => rfl
      · exact fun _ => rfl
      · exact .reported rfl (hholds g rfl) hterminal rfl

/-- A call of any client. `linkScheduledTasks` is the component that owns `scheduled_tasks`. -/
inductive CronCall where
  | addCronJob (a : AddCronJob)
  | setCronJobEnabled (s : SetCronJobEnabled)
  | deleteCronJob (jobId : String)
  | replaceCronJobPayload (jobId : String) (payload : Dict) (now : DateTime)
  | updateTaskCronJob (u : UpdateTaskCronJob)
  | setCronSchedulerControl (paused : Bool) (reason : Option String) (actor expectedUpdatedAt : String)
      (now : DateTime)
  | linkScheduledTasks (jobIds : List String)
  | enqueueDueCronRuns (e : EnqueueDue)
  | recoverExpiredCronRuns (now : DateTime) (limit : ℤ)
  | triggerCronRun (t : TriggerCronRun)
  | triggerTaskRunNow (jobId freshId : String) (now : DateTime)
  | acquireCronRuns (a : AcquireRuns)
  | renewCronRunLease (n : RenewRun)
  | retryCronRun (t : RetryRun)
  | finishCronRun (f : FinishRun)
  | markCronDeliveryTarget (d : DeliveryTarget)
  | unmarkCronDeliveryTarget (d : DeliveryTarget)
  | deleteOldCronRuns (beforeIso : String)
  | deleteTerminalCronRuns (jobId : String)

namespace CronCall

def silently {α : Type} (result : Except StoreError (CronDb × α)) : Except StoreError (CronDb × List CronEvent) :=
  result.map fun r => (r.1, [])

def execute (env : ScheduleEnv) (db : CronDb) : CronCall → Except StoreError (CronDb × List CronEvent)
  | addCronJob a => silently (CronStore.addCronJob env db a)
  | setCronJobEnabled s => silently (CronStore.setCronJobEnabled env db s)
  | deleteCronJob jobId => silently (CronStore.deleteCronJob db jobId)
  | replaceCronJobPayload jobId payload now => silently (CronStore.replaceCronJobPayload db jobId payload now)
  | updateTaskCronJob u => silently (CronStore.updateTaskCronJob env db u)
  | setCronSchedulerControl paused reason actor expected now =>
    silently (CronStore.setCronSchedulerControl db paused reason actor expected now)
  | linkScheduledTasks jobIds => .ok ({ db with scheduledTaskJobIds := jobIds }, [])
  | enqueueDueCronRuns e => silently (CronStore.enqueueDueCronRuns env db e)
  | recoverExpiredCronRuns now limit => silently (CronStore.recoverExpiredCronRuns db now limit)
  | triggerCronRun t => silently (CronStore.triggerCronRun env db t)
  | triggerTaskRunNow jobId freshId now => silently (CronStore.triggerTaskRunNow db jobId freshId now)
  | acquireCronRuns a => (CronStore.acquireCronRuns db a).map fun r => (r.1, r.2.map acquiredEvent)
  | renewCronRunLease n => silently (CronStore.renewCronRunLease db n)
  | retryCronRun t => (CronStore.retryCronRun db t).map fun r => (r.1, retryEvents t r.2)
  | finishCronRun f => (CronStore.finishCronRun db f).map fun r => (r.1, finishEvents f r.2)
  | markCronDeliveryTarget d => silently (CronStore.markCronDeliveryTarget db d)
  | unmarkCronDeliveryTarget d => silently (CronStore.unmarkCronDeliveryTarget db d)
  | deleteOldCronRuns beforeIso => (CronStore.deleteOldCronRuns db beforeIso).map fun r => (r.1, [.runsDeleted])
  | deleteTerminalCronRuns jobId =>
    (CronStore.deleteTerminalCronRuns db jobId).map fun r => (r.1, [.runsDeleted])

def KeepsRuns : CronCall → Prop
  | deleteOldCronRuns _ => False
  | deleteTerminalCronRuns _ => False
  | _ => True

def Fenced : CronCall → Prop
  | deleteOldCronRuns _ => False
  | deleteTerminalCronRuns _ => False
  | finishCronRun f => f.daemonId.isSome = true
  | _ => True

theorem Fenced.keepsRuns {c : CronCall} (h : c.Fenced) : c.KeepsRuns := by
  cases c with
  | deleteOldCronRuns => exact h
  | deleteTerminalCronRuns => exact h
  | _ => trivial

private theorem silently_path {α : Type} {result : Except StoreError (CronDb × α)} {events : List CronEvent}
    (hpath : ∀ x, result = .ok (db', x) → CronPath db [] db') (h : silently result = .ok (db', events)) :
    CronPath db events db' := by
  obtain ⟨⟨db₁, x⟩, hok, heq⟩ := map_eq_ok.mp h
  obtain ⟨rfl, rfl⟩ := Prod.mk.inj heq
  exact hpath x hok

theorem execute_path (hwf : CronWf db) {env : ScheduleEnv} {c : CronCall} {events : List CronEvent}
    (h : c.execute env db = .ok (db', events)) : CronPath db events db' := by
  cases c with
  | addCronJob a => exact silently_path (fun _ => addCronJob_path) h
  | setCronJobEnabled s => exact silently_path (fun _ => setCronJobEnabled_path) h
  | deleteCronJob jobId => exact silently_path (fun _ => deleteCronJob_path) h
  | replaceCronJobPayload jobId payload now => exact silently_path (fun _ => replaceCronJobPayload_path) h
  | updateTaskCronJob u => exact silently_path (fun _ => updateTaskCronJob_path) h
  | setCronSchedulerControl paused reason actor expected now =>
    exact silently_path (fun _ => setCronSchedulerControl_path) h
  | linkScheduledTasks jobIds =>
    obtain ⟨rfl, rfl⟩ := Prod.mk.inj (Except.ok.inj h)
    exact .single (.other rfl rfl)
  | enqueueDueCronRuns e => exact silently_path (fun _ => enqueueDueCronRuns_path hwf) h
  | recoverExpiredCronRuns now limit =>
    exact silently_path (fun _ hok => (recoverExpiredCronRuns_ok hwf hok).path) h
  | triggerCronRun t => exact silently_path (fun _ => triggerCronRun_path) h
  | triggerTaskRunNow jobId freshId now => exact silently_path (fun _ => triggerTaskRunNow_path) h
  | acquireCronRuns a =>
    obtain ⟨⟨db₁, rows⟩, hok, heq⟩ := map_eq_ok.mp h
    obtain ⟨rfl, rfl⟩ := Prod.mk.inj heq
    exact acquireCronRuns_path hwf hok
  | renewCronRunLease n => exact silently_path (fun _ => renewCronRunLease_path) h
  | retryCronRun t =>
    obtain ⟨⟨db₁, result⟩, hok, heq⟩ := map_eq_ok.mp h
    obtain ⟨rfl, rfl⟩ := Prod.mk.inj heq
    exact retryCronRun_path hwf hok
  | finishCronRun f =>
    obtain ⟨⟨db₁, result⟩, hok, heq⟩ := map_eq_ok.mp h
    obtain ⟨rfl, rfl⟩ := Prod.mk.inj heq
    exact finishCronRun_path hwf hok
  | markCronDeliveryTarget d => exact silently_path (fun _ => changeDeliveryTargets_path) h
  | unmarkCronDeliveryTarget d => exact silently_path (fun _ => changeDeliveryTargets_path) h
  | deleteOldCronRuns beforeIso =>
    obtain ⟨⟨db₁, n⟩, hok, heq⟩ := map_eq_ok.mp h
    obtain ⟨rfl, rfl⟩ := Prod.mk.inj heq
    obtain ⟨cutoff, -, hok⟩ := bind_eq_ok.mp hok
    obtain ⟨rfl, -⟩ := Prod.mk.inj (Except.ok.inj hok)
    exact .single (.deleteRuns _)
  | deleteTerminalCronRuns jobId =>
    obtain ⟨⟨db₁, n⟩, hok, heq⟩ := map_eq_ok.mp h
    obtain ⟨rfl, rfl⟩ := Prod.mk.inj heq
    obtain ⟨jid, -, hok⟩ := bind_eq_ok.mp hok
    obtain ⟨rfl, -⟩ := Prod.mk.inj (Except.ok.inj hok)
    exact .single (.deleteRuns _)

private theorem event_cases {env : ScheduleEnv} {c : CronCall} {events : List CronEvent}
    (h : c.execute env db = .ok (db', events)) (hc : c.KeepsRuns) {e : CronEvent} (he : e ∈ events) :
    (∃ r, e = acquiredEvent r) ∨ (∃ runId fence, e = .outcome runId fence) ∨
      ∃ f runId, c = .finishCronRun f ∧ f.daemonId = none ∧ e = .overridden runId := by
  cases c with
  | acquireCronRuns a =>
    obtain ⟨⟨db₁, rows⟩, -, heq⟩ := map_eq_ok.mp h
    obtain ⟨rfl, rfl⟩ := Prod.mk.inj heq
    obtain ⟨r, -, rfl⟩ := List.mem_map.mp he
    exact .inl ⟨r, rfl⟩
  | retryCronRun t =>
    obtain ⟨⟨db₁, result⟩, -, heq⟩ := map_eq_ok.mp h
    obtain ⟨rfl, rfl⟩ := Prod.mk.inj heq
    rw [retryEvents.eq_def] at he
    split at he
    · split at he
      · exact .inr (.inl ⟨_, _, List.mem_singleton.mp he⟩)
      · cases he
    · cases he
  | finishCronRun f =>
    obtain ⟨⟨db₁, result⟩, -, heq⟩ := map_eq_ok.mp h
    obtain ⟨rfl, rfl⟩ := Prod.mk.inj heq
    rw [finishEvents.eq_def] at he
    split at he
    · exact .inr (.inl ⟨_, _, List.mem_singleton.mp he⟩)
    · next hfence _ =>
      refine .inr (.inr ⟨f, _, rfl, ?_, List.mem_singleton.mp he⟩)
      rw [runFence.eq_def] at hfence
      split at hfence
      · cases hfence
      · next hdaemon _ => exact hdaemon
      · cases hfence
    · cases he
  | deleteOldCronRuns => exact hc.elim
  | deleteTerminalCronRuns => exact hc.elim
  | linkScheduledTasks jobIds =>
    obtain ⟨rfl, rfl⟩ := Prod.mk.inj (Except.ok.inj h)
    cases he
  | addCronJob | setCronJobEnabled | deleteCronJob | replaceCronJobPayload | updateTaskCronJob
  | setCronSchedulerControl | enqueueDueCronRuns | recoverExpiredCronRuns | triggerCronRun
  | triggerTaskRunNow | renewCronRunLease | markCronDeliveryTarget | unmarkCronDeliveryTarget =>
    obtain ⟨_, -, heq⟩ := map_eq_ok.mp h
    obtain ⟨rfl, rfl⟩ := Prod.mk.inj heq
    cases he

theorem KeepsRuns.events {env : ScheduleEnv} {c : CronCall} {events : List CronEvent} (hc : c.KeepsRuns)
    (h : c.execute env db = .ok (db', events)) : .runsDeleted ∉ events := by
  intro he
  rcases event_cases h hc he with ⟨_, h⟩ | ⟨_, _, h⟩ | ⟨_, _, -, -, h⟩
  · cases h
  · cases h
  · cases h

theorem Fenced.events {env : ScheduleEnv} {c : CronCall} {events : List CronEvent} (hc : c.Fenced)
    (h : c.execute env db = .ok (db', events)) (runId : String) : .overridden runId ∉ events := by
  intro he
  rcases event_cases h hc.keepsRuns he with ⟨_, h⟩ | ⟨_, _, h⟩ | ⟨f, _, rfl, hnone, -⟩
  · cases h
  · cases h
  · rw [Fenced, hnone] at hc
    cases hc

end CronCall

structure CronRun where
  db : CronDb
  history : List CronEvent

namespace CronRun

def start : CronRun := ⟨{}, []⟩

theorem start_wf : CronWf start.db := .empty

def step (env : ScheduleEnv) (σ : CronRun) (c : CronCall) : CronRun :=
  match c.execute env σ.db with
  | .ok (db', events) => ⟨db', σ.history ++ events⟩
  | .error _ => σ

theorem step_path (env : ScheduleEnv) {σ : CronRun} (hwf : CronWf σ.db) (c : CronCall) :
    ∃ events, (σ.step env c).history = σ.history ++ events ∧ CronPath σ.db events (σ.step env c).db ∧
      (c.KeepsRuns → .runsDeleted ∉ events) ∧ (c.Fenced → ∀ runId, .overridden runId ∉ events) := by
  rw [step]
  cases h : c.execute env σ.db with
  | error e => exact ⟨[], by simp, .nil σ.db, by simp, by simp⟩
  | ok r =>
    obtain ⟨db', events⟩ := r
    exact ⟨events, rfl, CronCall.execute_path hwf h, fun hc => hc.events h, fun hc => hc.events h⟩

theorem run_path (env : ScheduleEnv) {σ : CronRun} (hwf : CronWf σ.db) (calls : List CronCall) :
    ∃ events, (run (step env) σ calls).history = σ.history ++ events ∧
      CronPath σ.db events (run (step env) σ calls).db ∧
      ((∀ c ∈ calls, c.KeepsRuns) → .runsDeleted ∉ events) ∧
      ((∀ c ∈ calls, c.Fenced) → ∀ runId, .overridden runId ∉ events) := by
  induction calls generalizing σ with
  | nil => exact ⟨[], by simp, .nil σ.db, by simp, by simp⟩
  | cons c calls ih =>
    obtain ⟨es, hhistory, hpath, hkeep, hfenced⟩ := step_path env hwf c
    obtain ⟨fs, hhistory', hpath', hkeep', hfenced'⟩ := ih (CronPath.wf hwf hpath)
    refine ⟨es ++ fs, ?_, hpath.trans hpath', ?_, ?_⟩
    · rw [run_cons, hhistory', hhistory, List.append_assoc]
    · intro h
      rw [List.mem_append, not_or]
      exact ⟨hkeep (h c List.mem_cons_self), hkeep' fun d hd => h d (List.mem_cons_of_mem c hd)⟩
    · intro h runId
      rw [List.mem_append, not_or]
      exact ⟨hfenced (h c List.mem_cons_self) runId,
        hfenced' (fun d hd => h d (List.mem_cons_of_mem c hd)) runId⟩

end CronRun

def plainEnv : ScheduleEnv where
  parseIso _ := none
  jitterMs _ _ _ := 0
  nextCronOccurrence _ _ _ := .ok none
  staggerMs _ _ _ := 0

def clock (seconds : Fin 3600) : DateTime := ⟨63919965600000000 + seconds * 1000000, afterTen_lt_endOfTime seconds⟩

def hourlyJob (jobId : String) (maxAttempts : ℤ) (concurrencyKey : Option String) : AddCronJob where
  name := "hourly"
  schedule := .every 3600000 0
  payload := []
  maxAttempts := maxAttempts
  concurrencyKey := concurrencyKey
  jobId := some jobId
  freshId := ""
  now := clock 0

end OpenMinion.CronOperations
