import OpenMinion.CronRunHistory

/-!
# Fencing of cron runs

A daemon presents the acquisition it works under: its own name and the attempt number. The pair is checked in the
statement that changes the run.
-/
namespace OpenMinion.CronRunFencing
open CronOperations CronRunHistory CronSchedules CronStore CronTables CronTransitions KeyedTables PythonText
open SessionTables TransitionRuns

variable {db db' : CronDb} {events : List CronEvent}

/-- The pair of `daemon_id` and `expected_attempts`, when a call gives both. -/
def presentedFence (daemonId : Option String) (expectedAttempts : Option ℤ) : Option RunFence :=
  match daemonId, expectedAttempts with
  | some daemon, some attempts => some ⟨strip daemon, attempts⟩
  | _, _ => none

def presents : CronCall → Option (String × RunFence)
  | .renewCronRunLease n => some (strip n.runId, ⟨strip n.daemonId, n.expectedAttempts⟩)
  | .retryCronRun t => (presentedFence t.daemonId t.expectedAttempts).map (strip t.runId, ·)
  | .finishCronRun f => (presentedFence f.daemonId f.expectedAttempts).map (strip f.runId, ·)
  | .markCronDeliveryTarget d => (presentedFence d.daemonId d.expectedAttempts).map (strip d.runId, ·)
  | .unmarkCronDeliveryTarget d => (presentedFence d.daemonId d.expectedAttempts).map (strip d.runId, ·)
  | _ => none

theorem runFence_presented {daemonId : Option String} {expectedAttempts : Option ℤ} {fence : RunFence}
    (h : presentedFence daemonId expectedAttempts = some fence) :
    runFence daemonId expectedAttempts = .ok (some fence) := by
  cases daemonId with
  | none => cases h
  | some daemon =>
    cases expectedAttempts with
    | none => cases h
    | some attempts =>
      cases h
      rfl

private theorem requiredArgument_eq_ok {value field text : String}
    (h : requiredArgument value field = .ok text) : text = strip value := by
  rw [requiredArgument] at h
  split at h
  · cases h
  · exact (Except.ok.inj h).symm

/-- Some run stands under the acquisition that a call presents. -/
def Holds (db : CronDb) (runId : String) (fence : RunFence) : Prop :=
  ∃ r ∈ db.runs, r.runId = runId ∧ fence.holds r = true

theorem Holds.of_fencedRun {runId : String} {fence : RunFence} {r : CronRunRow}
    (h : fencedRun db runId (some fence) = some r) : Holds db runId fence := by
  obtain ⟨hr, hid, hholds⟩ := fencedRun_eq_some h
  exact ⟨r, hr, hid, hholds fence rfl⟩

theorem renewCronRunLease_holds {n : RenewRun} {renewed : Bool}
    (h : renewCronRunLease db n = .ok (db', renewed)) (hne : db' ≠ db) :
    Holds db (strip n.runId) ⟨strip n.daemonId, n.expectedAttempts⟩ := by
  rw [renewCronRunLease] at h
  obtain ⟨rid, hrid, h⟩ := bind_eq_ok.mp h
  obtain ⟨owner, howner, h⟩ := bind_eq_ok.mp h
  obtain ⟨expires, -, h⟩ := bind_eq_ok.mp h
  obtain ⟨rfl, -⟩ := Prod.mk.inj (Except.ok.inj h)
  rw [← requiredArgument_eq_ok hrid, ← requiredArgument_eq_ok howner]
  by_contra hnone
  apply hne
  rw [CronDb.updateRuns, updateWhere_eq_self]
  intro r hr
  rw [Bool.eq_false_iff]
  intro hmatch
  rw [Bool.and_eq_true, decide_eq_true_eq] at hmatch
  exact hnone ⟨r, hr, hmatch.1, hmatch.2⟩

theorem changeDeliveryTargets_holds {d : DeliveryTarget}
    {change : List String → String → Option (List String)} {changed : Bool} {fence : RunFence}
    (hfence : presentedFence d.daemonId d.expectedAttempts = some fence)
    (h : changeDeliveryTargets db d change = .ok (db', changed)) (hne : db' ≠ db) :
    Holds db (strip d.runId) fence := by
  rw [changeDeliveryTargets, runFence_presented hfence] at h
  obtain ⟨rid, hrid, h⟩ := bind_eq_ok.mp h
  obtain ⟨target, -, h⟩ := bind_eq_ok.mp h
  obtain ⟨fence', hfence', h⟩ := bind_eq_ok.mp h
  obtain rfl := Except.ok.inj hfence'
  rw [← requiredArgument_eq_ok hrid]
  cases hrun : fencedRun db rid (some fence) with
  | none =>
    rw [hrun] at h
    obtain ⟨rfl, -⟩ := Prod.mk.inj (Except.ok.inj h)
    exact absurd rfl hne
  | some r => exact .of_fencedRun hrun

theorem retryCronRun_holds {t : RetryRun} {result : Option CronRunRow} {fence : RunFence}
    (hfence : presentedFence t.daemonId t.expectedAttempts = some fence)
    (h : retryCronRun db t = .ok (db', result)) (hne : db' ≠ db) : Holds db (strip t.runId) fence := by
  rw [retryCronRun, runFence_presented hfence] at h
  obtain ⟨rid, hrid, h⟩ := bind_eq_ok.mp h
  obtain ⟨fence', hfence', h⟩ := bind_eq_ok.mp h
  obtain rfl := Except.ok.inj hfence'
  rw [← requiredArgument_eq_ok hrid]
  cases hrun : fencedRun db rid (some fence) with
  | none =>
    rw [hrun] at h
    obtain ⟨rfl, -⟩ := Prod.mk.inj (Except.ok.inj h)
    exact absurd rfl hne
  | some r => exact .of_fencedRun hrun

theorem finishCronRun_holds {f : FinishRun} {result : Option CronRunRow} {fence : RunFence}
    (hfence : presentedFence f.daemonId f.expectedAttempts = some fence)
    (h : finishCronRun db f = .ok (db', result)) (hne : db' ≠ db) : Holds db (strip f.runId) fence := by
  rw [finishCronRun, runFence_presented hfence] at h
  obtain ⟨_, -, h⟩ := bind_eq_ok.mp h
  obtain ⟨rid, hrid, h⟩ := bind_eq_ok.mp h
  obtain ⟨fence', hfence', h⟩ := bind_eq_ok.mp h
  obtain rfl := Except.ok.inj hfence'
  rw [← requiredArgument_eq_ok hrid]
  cases hrun : fencedRun db rid (some fence) with
  | none =>
    rw [hrun] at h
    obtain ⟨rfl, -⟩ := Prod.mk.inj (Except.ok.inj h)
    exact absurd rfl hne
  | some r => exact .of_fencedRun hrun

private theorem holds_of_map {α : Type} {result : Except StoreError (CronDb × α)}
    {g : CronDb × α → List CronEvent} {runId : String} {fence : RunFence}
    (hholds : ∀ x, result = .ok (db', x) → Holds db runId fence)
    (h : (result.map fun r => (r.1, g r)) = .ok (db', events)) : Holds db runId fence := by
  obtain ⟨⟨db₁, x⟩, hok, heq⟩ := map_eq_ok.mp h
  obtain ⟨rfl, -⟩ := Prod.mk.inj heq
  exact hholds x hok

private theorem presented_of_map {daemonId : Option String} {expectedAttempts : Option ℤ} {runId id : String}
    {fence : RunFence} (h : (presentedFence daemonId expectedAttempts).map (id, ·) = some (runId, fence)) :
    runId = id ∧ presentedFence daemonId expectedAttempts = some fence := by
  obtain ⟨fence', hfence, heq⟩ := Option.map_eq_some_iff.mp h
  obtain ⟨rfl, rfl⟩ := Prod.mk.inj heq
  exact ⟨rfl, hfence⟩

theorem execute_holds {env : ScheduleEnv} {c : CronCall} {runId : String} {fence : RunFence}
    (hpresents : presents c = some (runId, fence)) (h : c.execute env db = .ok (db', events))
    (hne : db' ≠ db) : Holds db runId fence := by
  cases c with
  | renewCronRunLease n =>
    obtain ⟨rfl, rfl⟩ := Prod.mk.inj (Option.some.inj hpresents)
    exact holds_of_map (fun _ hok => renewCronRunLease_holds hok hne) h
  | retryCronRun t =>
    obtain ⟨rfl, hfence⟩ := presented_of_map hpresents
    exact holds_of_map (fun _ hok => retryCronRun_holds hfence hok hne) h
  | finishCronRun f =>
    obtain ⟨rfl, hfence⟩ := presented_of_map hpresents
    exact holds_of_map (fun _ hok => finishCronRun_holds hfence hok hne) h
  | markCronDeliveryTarget d =>
    obtain ⟨rfl, hfence⟩ := presented_of_map hpresents
    exact holds_of_map (fun _ hok => changeDeliveryTargets_holds hfence hok hne) h
  | unmarkCronDeliveryTarget d =>
    obtain ⟨rfl, hfence⟩ := presented_of_map hpresents
    exact holds_of_map (fun _ hok => changeDeliveryTargets_holds hfence hok hne) h
  | addCronJob | setCronJobEnabled | deleteCronJob | replaceCronJobPayload | updateTaskCronJob
  | setCronSchedulerControl | linkScheduledTasks | enqueueDueCronRuns | recoverExpiredCronRuns
  | triggerCronRun | triggerTaskRunNow | acquireCronRuns | deleteOldCronRuns | deleteTerminalCronRuns =>
    cases hpresents

theorem Holds.latest {history : List CronEvent} {runId : String} {fence : RunFence}
    (hrecorded : Recorded db history) (h : Holds db runId fence) :
    (acquisitions history runId).getLast? = some fence ∧
      ∃ r ∈ db.runs, r.runId = runId ∧ r.state = .running := by
  obtain ⟨r, hr, rfl, hholds⟩ := h
  simp only [RunFence.holds, Bool.and_eq_true, decide_eq_true_eq] at hholds
  obtain ⟨⟨hrunning, howner⟩, hattempts⟩ := hholds
  obtain ⟨last, hlast, howner', hattempts'⟩ := (hrecorded.runs r hr).latest hrunning
  have heq : last = fence := by
    cases last
    cases fence
    simp_all
  rw [← heq]
  exact ⟨hlast, r, hr, rfl, hrunning⟩

theorem terminal_step (hwf : CronWf db) (hstep : CronStep db events db') (hkeep : .runsDeleted ∉ events)
    (hfenced : ∀ runId, .overridden runId ∉ events) {r : CronRunRow} (hr : r ∈ db.runs)
    (hterminal : r.state.isTerminal = true) :
    ∃ r' ∈ db'.runs, r'.runId = r.runId ∧ r'.state = r.state := by
  obtain ⟨r', hr', hrstep⟩ := hstep.run_next hwf hkeep hr
  refine ⟨r', hr', hrstep.runId, ?_⟩
  cases hrstep.move with
  | kept state attempts owner unnamed => exact state
  | acquired event queued job free state attempts owner =>
    rw [queued] at hterminal
    cases hterminal
  | requeued silent running state attempts below =>
    rw [running] at hterminal
    cases hterminal
  | closed silent active state attempts =>
    rw [RunState.isActive, hterminal] at active
    cases active
  | reported event holds state attempts =>
    simp only [RunFence.holds, Bool.and_eq_true, decide_eq_true_eq] at holds
    rw [holds.1.1] at hterminal
    cases hterminal
  | overridden event state attempts =>
    rw [event] at hfenced
    exact absurd (List.mem_singleton_self _) (hfenced r.runId)

theorem terminal_path (hwf : CronWf db) (hpath : CronPath db events db') (hkeep : .runsDeleted ∉ events)
    (hfenced : ∀ runId, .overridden runId ∉ events) {r : CronRunRow} (hr : r ∈ db.runs)
    (hterminal : r.state.isTerminal = true) :
    ∃ r' ∈ db'.runs, r'.runId = r.runId ∧ r'.state = r.state := by
  induction hpath generalizing r with
  | nil db => exact ⟨r, hr, rfl, rfl⟩
  | cons head tail ih =>
    rw [List.mem_append, not_or] at hkeep
    simp only [List.mem_append, not_or, forall_and] at hfenced
    obtain ⟨r₁, hr₁, hid₁, hstate₁⟩ := terminal_step hwf head hkeep.1 hfenced.1 hr hterminal
    obtain ⟨r₂, hr₂, hid₂, hstate₂⟩ := ih (head.wf hwf) hkeep.2 hfenced.2 hr₁ (hstate₁ ▸ hterminal)
    exact ⟨r₂, hr₂, hid₂.trans hid₁, hstate₂.trans hstate₁⟩

/-- Over every run of calls that deletes no runs and finishes runs only under a fence, a call with an acquisition
changes something only while it is the latest, a run that ended keeps its state, and at most one outcome is accepted.
-/
theorem cronRun_fencing (env : ScheduleEnv) (calls : List CronCall) (hcalls : ∀ c ∈ calls, c.Fenced) :
    let σ := run (CronRun.step env) CronRun.start calls
    (∀ c runId fence, presents c = some (runId, fence) → (σ.step env c).db ≠ σ.db →
      (acquisitions σ.history runId).getLast? = some fence ∧
        ∃ r ∈ σ.db.runs, r.runId = runId ∧ r.state = .running) ∧
    (∀ later : List CronCall, (∀ c ∈ later, c.Fenced) →
      ∀ r ∈ σ.db.runs, r.state.isTerminal = true →
        ∃ r' ∈ (run (CronRun.step env) σ later).db.runs, r'.runId = r.runId ∧ r'.state = r.state) ∧
    ∀ runId, (outcomes σ.history runId).length ≤ 1 := by
  intro σ
  obtain ⟨hwf, hrecorded⟩ := recorded_run env fun c hc => (hcalls c hc).keepsRuns
  refine ⟨?_, ?_, ?_⟩
  · intro c runId fence hpresents hne
    rw [CronRun.step.eq_def] at hne
    cases hexecute : c.execute env σ.db with
    | error e =>
      rw [hexecute] at hne
      exact absurd rfl hne
    | ok result =>
      obtain ⟨db', events⟩ := result
      rw [hexecute] at hne
      exact (execute_holds hpresents hexecute hne).latest hrecorded
  · intro later hlater r hr hterminal
    obtain ⟨events, -, hpath, hkeep, hfenced⟩ := CronRun.run_path env hwf later
    exact terminal_path hwf hpath (hkeep fun c hc => (hlater c hc).keepsRuns) (hfenced hlater) hr hterminal
  · intro runId
    cases hnil : outcomes σ.history runId with
    | nil => exact Nat.zero_le 1
    | cons fence rest =>
      have hmem : fence ∈ outcomes σ.history runId := by simp [hnil]
      obtain ⟨e, he, hfence⟩ := List.mem_filterMap.mp hmem
      have hid : e.runId = some runId := by
        cases e with
        | outcome id _ =>
          simp only [Option.ite_none_right_eq_some] at hfence
          exact congrArg some hfence.1
        | acquired | overridden | runsDeleted => cases hfence
      obtain ⟨r, hr, rfl⟩ := hrecorded.named e he runId hid
      rw [← hnil]
      exact (hrecorded.runs r hr).single

def recoveredRun : List CronCall :=
  [.addCronJob (hourlyJob "j" 3 none),
    .triggerCronRun { jobId := "j", freshId := "r", now := clock 0 },
    .acquireCronRuns { daemonId := "a", now := clock 1 },
    .recoverExpiredCronRuns (clock 100) 10,
    .acquireCronRuns { daemonId := "b", now := clock 200 }]

def lateFinish : CronCall :=
  .finishCronRun
    { runId := "r", state := .finished, daemonId := some "a", expectedAttempts := some 1, now := clock 201 }

theorem cronRun_fencing_recoveredRun :
    let σ := run (CronRun.step plainEnv) CronRun.start recoveredRun
    (∀ c ∈ recoveredRun, c.Fenced) ∧ σ.history = [.acquired "r" ⟨"a", 1⟩, .acquired "r" ⟨"b", 2⟩] ∧
      presents lateFinish = some ("r", ⟨"a", 1⟩) ∧ (σ.step plainEnv lateFinish).db = σ.db := by
  intro σ
  have hcalls : ∀ c ∈ recoveredRun, c.Fenced := by simp [recoveredRun, CronCall.Fenced]
  have hhistory : σ.history = [.acquired "r" ⟨"a", 1⟩, .acquired "r" ⟨"b", 2⟩] := by decide +kernel
  have hpresents : presents lateFinish = some ("r", ⟨"a", 1⟩) := by decide +kernel
  refine ⟨hcalls, hhistory, hpresents, ?_⟩
  by_contra hne
  obtain ⟨hlatest, -⟩ := (cronRun_fencing plainEnv recoveredRun hcalls).1 lateFinish "r" ⟨"a", 1⟩ hpresents hne
  rw [show (run (CronRun.step plainEnv) CronRun.start recoveredRun).history = _ from hhistory] at hlatest
  revert hlatest
  decide

end OpenMinion.CronRunFencing
