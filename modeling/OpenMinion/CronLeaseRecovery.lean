import OpenMinion.CronOperations

/-!
# Recovery of expired leases

The recovery joins runs with their jobs, while deleting a job sets the `job_id` of its runs to NULL: a run that loses
its job while it is running is never recovered.
-/
namespace OpenMinion.CronLeaseRecovery
open CronOperations CronSchedules CronStore CronTables CronTransitions IsoTimestamps KeyedTables SessionTables
open TransitionRuns

variable {db : CronDb} {now : DateTime}

def isExpired (nowIso : String) (r : CronRunRow) : Bool :=
  r.state = .running && r.leaseExpiresAt.any (· ≤ nowIso)

/-- The recovery of a run does not overflow: its attempts are used up, or the time of its
retry is in the calendar. -/
def Recoverable (now : DateTime) (r : CronRunRow) (j : CronJobRow) : Prop :=
  recoveryLimit j ≤ r.attempts ∨ (now.addSeconds (recoveryDelay r j)).isSome = true

def recoveredState (r : CronRunRow) (j : CronJobRow) : RunState :=
  if recoveryLimit j ≤ r.attempts then .failed else .queued

theorem recoverRun_isOk (acc : CronDb × List RecoveredRun) (r : CronRunRow) (j : CronJobRow) :
    (∃ acc', recoverRun now acc (r, j) = .ok acc') ↔ Recoverable now r j := by
  simp only [recoverRun, Recoverable]
  split
  · next hlimit => exact ⟨fun _ => .inl hlimit, fun _ => ⟨_, rfl⟩⟩
  · next hlimit =>
    cases now.addSeconds (recoveryDelay r j) with
    | none => simp [hlimit]
    | some available => simp

theorem recoverRun_ok {acc acc' : CronDb × List RecoveredRun} {r : CronRunRow} {j : CronJobRow}
    (h : recoverRun now acc (r, j) = .ok acc') :
    ∃ f : CronRunRow → CronRunRow, acc'.1 = acc.1.updateRuns (isRunning r.runId) f ∧
      ∀ s, (f s).runId = s.runId ∧ (f s).jobId = s.jobId ∧ (f s).state = recoveredState r j := by
  simp only [recoverRun] at h
  split at h
  · next hlimit =>
    obtain rfl := Except.ok.inj h
    exact ⟨_, rfl, fun s => ⟨rfl, rfl, (if_pos hlimit).symm⟩⟩
  · next hlimit =>
    split at h
    · cases h
    · obtain rfl := Except.ok.inj h
      exact ⟨_, rfl, fun s => ⟨rfl, rfl, (if_neg hlimit).symm⟩⟩

theorem recoveredState_ne_running (r : CronRunRow) (j : CronJobRow) : recoveredState r j ≠ .running := by
  rw [recoveredState]
  split <;> decide

theorem recoverLoop_isOk (rows : List (CronRunRow × CronJobRow)) (acc : CronDb × List RecoveredRun) :
    (∃ acc', rows.foldlM (recoverRun now) acc = .ok acc') ↔ ∀ row ∈ rows, Recoverable now row.1 row.2 := by
  induction rows generalizing acc with
  | nil => simp [pure, Except.pure]
  | cons row rows ih =>
    simp only [List.foldlM_cons, bind_eq_ok, List.forall_mem_cons]
    constructor
    · rintro ⟨acc', acc₁, hrow, hrows⟩
      exact ⟨(recoverRun_isOk acc row.1 row.2).mp ⟨acc₁, hrow⟩, (ih acc₁).mp ⟨acc', hrows⟩⟩
    · rintro ⟨hrow, hrows⟩
      obtain ⟨acc₁, hok⟩ := (recoverRun_isOk acc row.1 row.2).mpr hrow
      obtain ⟨acc', hloop⟩ := (ih acc₁).mpr hrows
      exact ⟨acc', acc₁, hok, hloop⟩

theorem recoverLoop_running {rows : List (CronRunRow × CronJobRow)} {acc acc' : CronDb × List RecoveredRun}
    (h : rows.foldlM (recoverRun now) acc = .ok acc') {s : CronRunRow} (hs : s ∈ acc'.1.runs)
    (hrunning : s.state = .running) : s ∈ acc.1.runs ∧ ∀ row ∈ rows, row.1.runId ≠ s.runId := by
  induction rows generalizing acc with
  | nil =>
    obtain rfl := Except.ok.inj h
    exact ⟨hs, by simp⟩
  | cons row rows ih =>
    rw [List.foldlM_cons] at h
    obtain ⟨acc₁, hrow, hrows⟩ := bind_eq_ok.mp h
    obtain ⟨hs₁, hother⟩ := ih hrows
    obtain ⟨f, hf, hfields⟩ := recoverRun_ok (r := row.1) (j := row.2) hrow
    rw [hf] at hs₁
    obtain ⟨t, ht, heq⟩ := mem_updateWhere.mp hs₁
    split at heq
    · have hstate := (hfields t).2.2
      rw [heq, hrunning] at hstate
      exact absurd hstate.symm (recoveredState_ne_running row.1 row.2)
    · next hp =>
      subst heq
      refine ⟨ht, List.forall_mem_cons.mpr ⟨fun hid => hp ?_, hother⟩⟩
      exact decide_eq_true ⟨hid.symm, hrunning⟩

theorem recoverLoop_untouched {rows : List (CronRunRow × CronJobRow)} {acc acc' : CronDb × List RecoveredRun}
    (h : rows.foldlM (recoverRun now) acc = .ok acc') {s : CronRunRow} (hs : s ∈ acc.1.runs)
    (hother : ∀ row ∈ rows, row.1.runId ≠ s.runId) : s ∈ acc'.1.runs := by
  induction rows generalizing acc with
  | nil =>
    obtain rfl := Except.ok.inj h
    exact hs
  | cons row rows ih =>
    rw [List.foldlM_cons] at h
    obtain ⟨acc₁, hrow, hrows⟩ := bind_eq_ok.mp h
    obtain ⟨f, hf, -⟩ := recoverRun_ok (r := row.1) (j := row.2) hrow
    obtain ⟨hne, hother⟩ := List.forall_mem_cons.mp hother
    refine ih hrows ?_ hother
    rw [hf]
    refine mem_updateWhere.mpr ⟨s, hs, if_neg ?_⟩
    rw [isRunning, decide_eq_true_eq]
    exact fun hp => hne hp.1.symm

theorem mem_expiredRuns_iff {limit : ℤ} (hlimit : (db.runs.countP (isExpired (toIsoUtc now)) : ℤ) ≤ limit)
    (hmax : limit ≤ 1000) {r : CronRunRow} {j : CronJobRow} :
    (r, j) ∈ expiredRuns db (toIsoUtc now) limit ↔
      r ∈ db.runs ∧ db.jobOf r = some j ∧ isExpired (toIsoUtc now) r = true := by
  constructor
  · intro h
    obtain ⟨hr, hj, hstate, hlease⟩ := mem_expiredRuns h
    exact ⟨hr, hj, by simp [isExpired, hstate, hlease]⟩
  · rintro ⟨hr, hj, hexpired⟩
    rw [expiredRuns, List.take_of_length_le]
    · rw [(List.perm_insertionSort _ _).mem_iff, List.mem_filterMap]
      refine ⟨r, hr, ?_⟩
      rw [isExpired, Bool.and_eq_true, decide_eq_true_eq] at hexpired
      rw [hj, Option.bind_some, if_pos hexpired]
    · rw [List.length_insertionSort]
      have hle : (db.runs.filterMap fun r => (db.jobOf r).bind fun j =>
          if r.state = .running ∧ r.leaseExpiresAt.any (· ≤ toIsoUtc now) = true then some (r, j) else none).length ≤
          db.runs.countP (isExpired (toIsoUtc now)) := by
        rw [List.length_filterMap_eq_countP]
        apply List.countP_mono_left
        intro s _ hs
        obtain ⟨row, hrow⟩ := Option.isSome_iff_exists.mp hs
        obtain ⟨k, -, hif⟩ := Option.bind_eq_some_iff.mp hrow
        split at hif
        · next hexpired => simpa [isExpired] using hexpired
        · cases hif
      refine le_trans hle ?_
      omega

/-- After `recover_expired_cron_runs` no run is left running under an expired lease exactly if every expired run has
its job and its recovery does not overflow. -/
theorem cronRecovery_complete_iff (env : ScheduleEnv) (calls : List CronCall) (now : DateTime) (limit : ℤ)
    (hlimit : ((run (CronRun.step env) CronRun.start calls).db.runs.countP (isExpired (toIsoUtc now)) : ℤ) ≤ limit)
    (hmax : limit ≤ 1000) :
    let σ := run (CronRun.step env) CronRun.start calls
    (∀ r ∈ (σ.step env (.recoverExpiredCronRuns now limit)).db.runs, isExpired (toIsoUtc now) r = false) ↔
      ∀ r ∈ σ.db.runs, isExpired (toIsoUtc now) r = true →
        ∃ j, σ.db.jobOf r = some j ∧ Recoverable now r j := by
  intro σ
  obtain ⟨events, -, hpath, -⟩ := CronRun.run_path env CronRun.start_wf calls
  have hwf : CronWf σ.db := CronPath.wf CronRun.start_wf hpath
  have hmem : ∀ {r j}, (r, j) ∈ expiredRuns σ.db (toIsoUtc now) limit ↔
      r ∈ σ.db.runs ∧ σ.db.jobOf r = some j ∧ isExpired (toIsoUtc now) r = true :=
    mem_expiredRuns_iff hlimit hmax
  have hstep : ∀ {db' recovered}, recoverExpiredCronRuns σ.db now limit = .ok (db', recovered) →
      (σ.step env (.recoverExpiredCronRuns now limit)).db = db' := by
    intro db' recovered hok
    simp [CronRun.step, CronCall.execute, CronCall.silently, hok, Except.map]
  constructor
  · intro hnone r hr hexpired
    cases hrecover : recoverExpiredCronRuns σ.db now limit with
    | error e =>
      have hsame : (σ.step env (.recoverExpiredCronRuns now limit)).db = σ.db := by
        simp [CronRun.step, CronCall.execute, CronCall.silently, hrecover, Except.map]
      rw [hsame] at hnone
      rw [hnone r hr] at hexpired
      cases hexpired
    | ok result =>
      obtain ⟨db', recovered⟩ := result
      rw [hstep hrecover] at hnone
      rw [recoverExpiredCronRuns] at hrecover
      cases hjob : σ.db.jobOf r with
      | some j => exact ⟨j, rfl, (recoverLoop_isOk _ _).mp ⟨_, hrecover⟩ (r, j) (hmem.mpr ⟨hr, hjob, hexpired⟩)⟩
      | none =>
        -- the join drops the run, so no iteration has its id
        have hkept : r ∈ db'.runs := by
          refine recoverLoop_untouched hrecover hr ?_
          rintro ⟨s, j⟩ hrow hid
          obtain ⟨hs, hj, -⟩ := hmem.mp hrow
          rw [hwf.runKey.eq_of_key_eq hs hr hid, hjob] at hj
          cases hj
        rw [hnone r hkept] at hexpired
        cases hexpired
  · intro hall r hr
    have hrows : ∀ row ∈ expiredRuns σ.db (toIsoUtc now) limit, Recoverable now row.1 row.2 := by
      rintro ⟨s, j⟩ hrow
      obtain ⟨hs, hj, hexpired⟩ := hmem.mp hrow
      obtain ⟨k, hk, hrecoverable⟩ := hall s hs hexpired
      rwa [Option.some.inj (hj.symm.trans hk)]
    obtain ⟨⟨db', recovered⟩, hrecover⟩ := (recoverLoop_isOk _ (σ.db, [])).mpr hrows
    rw [hstep hrecover] at hr
    rw [Bool.eq_false_iff]
    intro hexpired
    have hrunning : r.state = .running := by
      rw [isExpired, Bool.and_eq_true, decide_eq_true_eq] at hexpired
      exact hexpired.1
    obtain ⟨hbefore, hother⟩ := recoverLoop_running hrecover hr hrunning
    obtain ⟨j, hj, -⟩ := hall r hbefore hexpired
    exact hother (r, j) (hmem.mpr ⟨hbefore, hj, hexpired⟩) rfl

def crashedDaemon : List CronCall :=
  [.addCronJob (hourlyJob "j" 3 none),
    .triggerCronRun { jobId := "j", freshId := "r", now := clock 0 },
    .acquireCronRuns { daemonId := "a", now := clock 1 }]

theorem cronRecovery_crashedDaemon :
    let σ := run (CronRun.step plainEnv) CronRun.start crashedDaemon
    σ.db.runs.countP (isExpired (toIsoUtc (clock 100))) = 1 ∧
      ∀ r ∈ (σ.step plainEnv (.recoverExpiredCronRuns (clock 100) 1)).db.runs,
        isExpired (toIsoUtc (clock 100)) r = false := by
  intro σ
  have hcount : σ.db.runs.countP (isExpired (toIsoUtc (clock 100))) = 1 := by decide +kernel
  have hjobs : ∀ r ∈ σ.db.runs, (σ.db.jobOf r).any
      (fun j => ((clock 100).addSeconds (recoveryDelay r j)).isSome) = true := by decide +kernel
  refine ⟨hcount, (cronRecovery_complete_iff plainEnv crashedDaemon (clock 100) 1 ?_ (by decide)).mpr ?_⟩
  · exact le_of_eq (congrArg Nat.cast hcount)
  · intro r hr _
    obtain ⟨j, hj, hsome⟩ := (Option.any_eq_true _ _).mp (hjobs r hr)
    exact ⟨j, hj, .inr hsome⟩

def deletedJob : List CronCall := crashedDaemon ++ [CronCall.deleteCronJob "j"]

/-- The recovery does not see the run without a job. -/
theorem cronRecovery_strands_deletedJob :
    let σ := run (CronRun.step plainEnv) CronRun.start deletedJob
    σ.db.runs.countP (isExpired (toIsoUtc (clock 100))) = 1 ∧
      ¬ ∀ r ∈ (σ.step plainEnv (.recoverExpiredCronRuns (clock 100) 1)).db.runs,
        isExpired (toIsoUtc (clock 100)) r = false := by
  decide +kernel

end OpenMinion.CronLeaseRecovery
