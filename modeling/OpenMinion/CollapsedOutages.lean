import OpenMinion.CronOccurrences

/-!
# The next due time after an outage

The loop over the due times of a job ends after 512 of them. The cursor at which it ends is the
next due time, also where it has not passed the present.
-/
namespace OpenMinion.CollapsedOutages
open CronExpressions CronOccurrences CronSchedules IsoTimestamps PythonText SessionTables

/-- A recurring schedule as it is accepted, with a fixed offset for a cron expression. -/
def Recurring (platform : Platform) : Schedule → Prop
  | .atTime _ => False
  | .every everyMs jitterMs => 0 < everyMs ∧ 0 ≤ jitterMs
  | .cron expr tz staggerMs => (∃ spec, parseCronExpression platform.digit expr = .ok spec) ∧
      (∃ z, platform.zone tz = some z ∧ z.Fixed) ∧ 0 ≤ staggerMs

def nthDue (env : ScheduleEnv) (schedule : Schedule) (jobId : String) : ℕ → DateTime → Except StoreError (Option DateTime)
  | 0, due => .ok (some due)
  | n + 1, due => do
    match ← computeNextDue env schedule due jobId (some due) with
    | none => return none
    | some next => nthDue env schedule jobId n next

def CapReached (env : ScheduleEnv) (schedule : Schedule) (jobId : String) (now start : DateTime) : Prop :=
  ∃ due, nthDue env schedule jobId 512 start = .ok (some due) ∧ due ≤ now

section
variable (env : ScheduleEnv) (schedule : Schedule) (policy : MisfirePolicy) (maxLatenessS : ℤ) (jobId : String)
  (nextDueAt : Option String) (now : DateTime)

/-- No due time that has passed is returned as the next one. -/
def Collapses : Prop :=
  ∀ selected next, selectDuePoints env schedule policy maxLatenessS jobId nextDueAt now = .ok (selected, some next) → now < next

/-- The loop passes the present before it ends, where it runs and returns. -/
def PassesPresent : Prop :=
  stripOr nextDueAt ≠ "" → ∀ start, env.parseIso (stripOr nextDueAt) = some start →
    (now.addSeconds (-max 0 maxLatenessS)).isSome → ¬ CapReached env schedule jobId now start

end

theorem micros_of_addMilliseconds {t t' : DateTime} {n : ℕ} (h : addMilliseconds t n = .ok t') :
    t'.micros = t.micros + n * 1000 := by
  have hcast : (n : ℤ) * 1000 = (n * 1000 : ℕ) := by
    rw [Int.natCast_mul]
    rfl
  rw [addMilliseconds, hcast] at h
  cases hsum : t.addMicros (n * 1000 : ℕ) with
  | none =>
    rw [hsum] at h
    cases h
  | some sum =>
    rw [hsum] at h
    cases h
    exact addMicros_eq_some.mp hsum

theorem le_of_addMilliseconds {t t' : DateTime} {ms : ℤ} (hms : 0 ≤ ms) (h : addMilliseconds t ms = .ok t') : t ≤ t' := by
  obtain ⟨n, rfl⟩ := Int.eq_ofNat_of_zero_le hms
  have hmicros := micros_of_addMilliseconds h
  change t.micros ≤ t'.micros
  omega

theorem lt_of_addMilliseconds {t t' : DateTime} {ms : ℤ} (hms : 0 < ms) (h : addMilliseconds t ms = .ok t') : t < t' := by
  obtain ⟨n, rfl⟩ := Int.eq_ofNat_of_zero_le hms.le
  have hmicros := micros_of_addMilliseconds h
  change t.micros < t'.micros
  omega

theorem deterministicJitterMs_nonneg (platform : Platform) (jobId : String) (t : DateTime) (jitterMs : ℤ) :
    0 ≤ deterministicJitterMs platform jobId t jitterMs := by
  rw [deterministicJitterMs]
  split
  · exact le_refl 0
  · exact Int.emod_nonneg _ (by omega)

theorem deterministicCronStaggerMs_nonneg (platform : Platform) (jobId expr : String) (staggerMs : ℤ) :
    0 ≤ deterministicCronStaggerMs platform jobId expr staggerMs := by
  rw [deterministicCronStaggerMs]
  split
  · exact le_refl 0
  · exact Int.emod_nonneg _ (by omega)

theorem lt_of_computeNextDue {platform : Platform} {schedule : Schedule} (h : Recurring platform schedule) {jobId : String}
    {after next : DateTime} (hnext : computeNextDue (scheduleEnv platform) schedule after jobId (some after) = .ok (some next)) :
    after < next := by
  cases schedule with
  | atTime => exact h.elim
  | every everyMs jitterMs =>
    simp only [computeNextDue, Option.getD_some, bind_eq_ok] at hnext
    obtain ⟨interval, hinterval, hnext⟩ := hnext
    have hlt := lt_of_addMilliseconds h.1 hinterval
    by_cases hjitter : jitterMs > 0
    · rw [if_pos hjitter] at hnext
      cases hsum : addMilliseconds interval ((scheduleEnv platform).jitterMs jobId interval jitterMs) with
      | error => simp [hsum] at hnext
      | ok sum =>
        rw [hsum] at hnext
        cases hnext
        exact hlt.trans_le (le_of_addMilliseconds (deterministicJitterMs_nonneg platform jobId interval jitterMs) hsum)
    · rw [if_neg hjitter] at hnext
      cases hnext
      exact hlt
  | cron expr tz staggerMs =>
    obtain ⟨⟨spec, hspec⟩, ⟨z, hzone, hfixed⟩, _⟩ := h
    simp only [computeNextDue, bind_eq_ok] at hnext
    obtain ⟨found, hfound, hnext⟩ := hnext
    cases found with
    | none => cases hnext
    | some due =>
      have hocc : nextOccurrence z spec after = .ok (some due) := (nextCronOccurrence_eq hspec hzone after).symm.trans hfound
      have hlt := lt_of_nextOccurrence hfixed hocc
      by_cases hstagger : staggerMs ≤ 0
      · simp only [if_pos hstagger] at hnext
        cases hnext
        exact hlt
      · simp only [if_neg hstagger] at hnext
        cases hsum : addMilliseconds due ((scheduleEnv platform).staggerMs jobId expr staggerMs) with
        | error => simp [hsum] at hnext
        | ok sum =>
          rw [hsum] at hnext
          cases hnext
          exact hlt.trans_le (le_of_addMilliseconds (deterministicCronStaggerMs_nonneg platform jobId expr staggerMs) hsum)

theorem not_isAt {platform : Platform} {schedule : Schedule} (h : Recurring platform schedule) : schedule.isAt = false := by
  cases schedule with
  | atTime => exact h.elim
  | every => rfl
  | cron => rfl

section
variable {platform : Platform} {schedule : Schedule} {jobId : String} {now : DateTime}

theorem nthDue_succ {n : ℕ} {start : DateTime} {due : DateTime}
    (h : nthDue (scheduleEnv platform) schedule jobId (n + 1) start = .ok (some due)) :
    ∃ next, computeNextDue (scheduleEnv platform) schedule start jobId (some start) = .ok (some next) ∧
      nthDue (scheduleEnv platform) schedule jobId n next = .ok (some due) := by
  rw [nthDue] at h
  obtain ⟨found, hfound, h⟩ := bind_eq_ok.mp h
  cases found with
  | none => cases h
  | some next => exact ⟨next, hfound, h⟩

theorem le_nthDue (hrecurring : Recurring platform schedule) {n : ℕ} {start due : DateTime}
    (h : nthDue (scheduleEnv platform) schedule jobId n start = .ok (some due)) : start ≤ due := by
  induction n generalizing start with
  | zero =>
    cases h
    exact le_refl due
  | succ n ih =>
    obtain ⟨next, hnext, hrest⟩ := nthDue_succ h
    exact (lt_of_computeNextDue hrecurring hnext).le.trans (ih hrest)

theorem dueCandidates_passed (hrecurring : Recurring platform schedule) {fuel : ℕ} {start cursor : DateTime}
    (hpassed : cursor ≤ now) :
    (∃ candidates, dueCandidates (scheduleEnv platform) schedule jobId now fuel start = .ok (candidates, some cursor)) ↔
      nthDue (scheduleEnv platform) schedule jobId fuel start = .ok (some cursor) := by
  induction fuel generalizing start with
  | zero =>
    constructor
    · rintro ⟨candidates, h⟩
      cases h
      rfl
    · intro h
      cases h
      exact ⟨[], rfl⟩
  | succ fuel ih =>
    constructor
    · rintro ⟨candidates, h⟩
      rw [dueCandidates] at h
      by_cases hfuture : now < start
      · rw [if_pos hfuture] at h
        cases h
        exact absurd hpassed (not_le.mpr hfuture)
      · rw [if_neg hfuture, if_neg (by simp [not_isAt hrecurring])] at h
        obtain ⟨found, hfound, h⟩ := bind_eq_ok.mp h
        cases found with
        | none => cases h
        | some next =>
          obtain ⟨⟨rest, last⟩, hrest, h⟩ := bind_eq_ok.mp h
          cases h
          rw [nthDue, hfound]
          exact ih.mp ⟨rest, hrest⟩
    · intro h
      obtain ⟨next, hnext, hrest⟩ := nthDue_succ h
      obtain ⟨rest, hcandidates⟩ := ih.mpr hrest
      have hstart : start ≤ now := ((lt_of_computeNextDue hrecurring hnext).le.trans (le_nthDue hrecurring hrest)).trans hpassed
      refine ⟨start :: rest, ?_⟩
      rw [dueCandidates, if_neg (not_lt.mpr hstart), if_neg (by simp [not_isAt hrecurring]), hnext]
      exact bind_eq_ok.mpr ⟨some next, rfl, bind_eq_ok.mpr ⟨_, hcandidates, rfl⟩⟩

end

/-- **An outage is collapsed in one tick exactly when the loop passes the present.** -/
theorem collapses_iff {platform : Platform} {schedule : Schedule} (hrecurring : Recurring platform schedule)
    (policy : MisfirePolicy) (maxLatenessS : ℤ) (jobId : String) (nextDueAt : Option String) (now : DateTime) :
    Collapses (scheduleEnv platform) schedule policy maxLatenessS jobId nextDueAt now ↔
      PassesPresent (scheduleEnv platform) schedule maxLatenessS jobId nextDueAt now := by
  have hat := not_isAt hrecurring
  constructor
  · rintro h hne start hstart hcutoff ⟨due, hdue, hpassed⟩
    obtain ⟨candidates, hcandidates⟩ := (dueCandidates_passed hrecurring hpassed).mpr hdue
    obtain ⟨cutoff, hcutoff⟩ := Option.isSome_iff_exists.mp hcutoff
    obtain ⟨selected, hselected⟩ : ∃ selected,
        selectDuePoints (scheduleEnv platform) schedule policy maxLatenessS jobId nextDueAt now = .ok (selected, some due) := by
      refine ⟨selectByPolicy policy schedule now candidates (candidates.filter fun t => cutoff ≤ t), ?_⟩
      rw [selectDuePoints, if_neg hne]
      refine bind_eq_ok.mpr ⟨start, by rw [parseIsoDatetime, hstart], bind_eq_ok.mpr ⟨_, hcandidates, ?_⟩⟩
      refine bind_eq_ok.mpr ⟨cutoff, by rw [hcutoff]; rfl, ?_⟩
      simp only [hat]
      rfl
    exact absurd hpassed (not_le.mpr (h selected due hselected))
  · intro h selected next hselect
    rw [selectDuePoints] at hselect
    by_cases hblank : stripOr nextDueAt = ""
    · rw [if_pos hblank] at hselect
      cases hselect
    · rw [if_neg hblank] at hselect
      obtain ⟨start, hparse, hselect⟩ := bind_eq_ok.mp hselect
      obtain ⟨⟨candidates, cursor⟩, hcandidates, hselect⟩ := bind_eq_ok.mp hselect
      obtain ⟨cutoff, hcutoff, hselect⟩ := bind_eq_ok.mp hselect
      simp only [hat] at hselect
      cases cursor with
      | none =>
        -- the schedule ended in the loop and is asked again from the present
        obtain ⟨again, hagain, hselect⟩ := bind_eq_ok.mp hselect
        cases hselect
        exact lt_of_computeNextDue hrecurring hagain
      | some cursor =>
        cases hselect
        by_contra hpassed
        have hstart : (scheduleEnv platform).parseIso (stripOr nextDueAt) = some start := by
          rw [parseIsoDatetime] at hparse
          split at hparse
          · next t ht =>
            cases hparse
            exact ht
          · cases hparse
        have hisSome : (now.addSeconds (-max 0 maxLatenessS)).isSome = true := by
          cases hsum : now.addSeconds (-max 0 maxLatenessS) with
          | none =>
            rw [hsum] at hcutoff
            cases hcutoff
          | some sum => rfl
        exact h hblank start hstart hisSome ⟨next, (dueCandidates_passed hrecurring (not_lt.mp hpassed)).mp ⟨_, hcandidates⟩,
          not_lt.mp hpassed⟩

theorem addMilliseconds_eq_ok {t t' : DateTime} {n : ℕ} : addMilliseconds t n = .ok t' ↔ t'.micros = t.micros + n * 1000 := by
  constructor
  · exact micros_of_addMilliseconds
  · intro h
    have hcast : (n : ℤ) * 1000 = (n * 1000 : ℕ) := by
      rw [Int.natCast_mul]
      rfl
    rw [addMilliseconds, hcast, addMicros_eq_some.mpr h]
    rfl

theorem computeNextDue_every {env : ScheduleEnv} {everyMs : ℕ} {jobId : String} {start next : DateTime} :
    computeNextDue env (.every everyMs 0) start jobId (some start) = .ok (some next) ↔
      next.micros = start.micros + everyMs * 1000 := by
  rw [← addMilliseconds_eq_ok]
  change Except.bind (addMilliseconds start everyMs) (fun t => .ok (some t)) = _ ↔ _
  cases addMilliseconds start everyMs with
  | error => exact iff_of_false (fun h => nomatch h) fun h => nomatch h
  | ok t => simp [Except.bind]

def outageStart : DateTime := ⟨63919929600000000, by decide⟩

def outageEnd : DateTime := ⟨63919965600000000, tenOClock_lt_endOfTime⟩

theorem ordered_nil : ([] : List (ℤ × ℤ)).Pairwise fun a b => a.1 < b.1 := .nil

def utc : WallClocks.Zone := ⟨0, [], ordered_nil⟩

def outagePlatform : Platform where
  digit := asciiDigit
  zone name := if name = "UTC" then some utc else none
  parseIso text := if text = "2026-07-18T00:00:00+00:00" then some outageStart else none
  seedDigest _ := 0
  jitterSeed jobId _ := jobId

theorem minute_recurring : Recurring outagePlatform (.every 60000 0) := by
  constructor <;> decide

theorem outage_collapses_iff :
    Collapses (scheduleEnv outagePlatform) (.every 60000 0) .runOnce 600 "report" (some "2026-07-18T00:00:00+00:00") outageEnd ↔
      PassesPresent (scheduleEnv outagePlatform) (.every 60000 0) 600 "report" (some "2026-07-18T00:00:00+00:00") outageEnd :=
  collapses_iff minute_recurring .runOnce 600 "report" (some "2026-07-18T00:00:00+00:00") outageEnd

/-- The 512 minutes that the loop passes end before the outage does. -/
theorem minutes_left_in_outage :
    ¬ ∀ (platform : Platform) (schedule : Schedule), Recurring platform schedule →
      ∀ (policy : MisfirePolicy) (maxLatenessS : ℤ) (jobId : String) (nextDueAt : Option String) (now : DateTime),
        Collapses (scheduleEnv platform) schedule policy maxLatenessS jobId nextDueAt now := by
  intro h
  have hcollapses := h outagePlatform (.every 60000 0) minute_recurring .runOnce 600 "report" (some "2026-07-18T00:00:00+00:00")
    outageEnd
  have hstart : ∃ next, selectDuePoints (scheduleEnv outagePlatform) (.every 60000 0) .runOnce 600 "report"
      (some "2026-07-18T00:00:00+00:00") outageEnd = .ok ([outageEnd], some next) ∧ next ≤ outageEnd := by
    refine ⟨⟨63919960320000000, by decide⟩, ?_, by decide⟩
    decide +kernel
  obtain ⟨next, hselect, hpassed⟩ := hstart
  exact absurd hpassed (not_le.mpr (hcollapses _ next hselect))

end OpenMinion.CollapsedOutages
