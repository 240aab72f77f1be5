import OpenMinion.CollapsedOutages

/-!
# Staggered cron schedules

The stagger of a job is added to each occurrence of its expression. The next due time is searched
from the staggered time, so a stagger that reaches the next occurrence skips it.
-/
namespace OpenMinion.StaggeredSchedules
open CollapsedOutages CronExpressions CronOccurrences CronSchedules IsoTimestamps SessionTables WallClocks

def duesFrom (env : ScheduleEnv) (schedule : Schedule) (jobId : String) : ℕ → DateTime → Except StoreError (List DateTime)
  | 0, _ => .ok []
  | n + 1, due => do
    match ← computeNextDue env schedule due jobId (some due) with
    | none => return []
    | some next => return next :: (← duesFrom env schedule jobId n next)

/-- The occurrence of the expression that follows another one. -/
structure NextAfter (z : Zone) (spec : CronSpec) (o o' : DateTime) : Prop where
  lt : o < o'
  occurs : Occurs z spec o'
  least : ∀ t, o < t → Occurs z spec t → o' ≤ t

/-- The staggered times are those of the occurrences, one by one. -/
def Staggered (stagger : ℤ) (os dues : List DateTime) : Prop := List.Forall₂ (fun o due => addMilliseconds o stagger = .ok due) os dues

/-- The staggered time of an occurrence lies before the next one, which the search from there
reaches, and whose staggered time the calendar has. -/
def Reaches (z : Zone) (spec : CronSpec) (stagger : ℤ) (o o' : DateTime) : Prop :=
  ∃ due due', addMilliseconds o stagger = .ok due ∧ addMilliseconds o' stagger = .ok due' ∧ due < o' ∧
    ∃ cursor limit w, searchWindow z spec due = some (cursor, limit) ∧ wallTime z o' = some w ∧ w ≤ limit

section
variable {platform : Platform} {expr tz jobId : String} {staggerMs : ℤ} {z : Zone} {spec : CronSpec}

theorem nextOccurrence_of_nextAfter (hfixed : z.Fixed) {o o' after : DateTime} (hnext : NextAfter z spec o o') (hle : o ≤ after) :
    nextOccurrence z spec after = .ok (some o') ↔
      after < o' ∧ ∃ cursor limit w, searchWindow z spec after = some (cursor, limit) ∧ wallTime z o' = some w ∧ w ≤ limit := by
  constructor
  · intro h
    obtain ⟨cursor, limit, w, hwindow, hfirst, hread⟩ := nextOccurrence_eq_some.mp h
    have hwall : wallTime z o' = some w := (wallTime_fixed hfixed).mpr ((ofWallTime_fixed hfixed).mp hread)
    exact ⟨lt_of_nextOccurrence hfixed h, cursor, limit, w, hwindow, hwall, hfirst.le_limit⟩
  · rintro ⟨hlt, cursor, limit, w, hwindow, hwall, hlimit⟩
    obtain ⟨v, hv, hmatch⟩ := hnext.occurs
    obtain rfl : v = w := Option.some.inj (hv.symm.trans hwall)
    obtain ⟨wall, hafter, hcursor, -⟩ := searchWindow_eq_some.mp hwindow
    have hafterEq := (wallTime_fixed hfixed).mp hafter
    have hwallEq := (wallTime_fixed hfixed).mp hwall
    have hltMicros : after.micros < o'.micros := hlt
    have hmod := Nat.div_add_mod wall.micros (stepMicros spec)
    have hrest := Nat.mod_lt wall.micros (stepMicros_pos spec)
    rw [Nat.mul_comm, Nat.mul_succ] at hcursor
    have hcursorMod : (stepMicros spec * (wall.micros / stepMicros spec)) % stepMicros spec = 0 := Nat.mul_mod_right _ _
    refine nextOccurrence_eq_some.mpr ⟨cursor, limit, v, hwindow, ⟨?_, hlimit, hmatch, ?_⟩, ?_⟩
    · -- the grid has no time between the present wall-clock time and the cursor
      have hgrid := le_of_lt_of_aligned hcursorMod hmatch.1 (by omega)
      change cursor.micros ≤ v.micros
      omega
    · intro u hu huv hmatches
      have huLe : cursor.micros ≤ u.micros := hu
      have huLt : u.micros < v.micros := huv
      have hin := o'.inRange
      have hinstant : ∃ t : DateTime, (u.micros : ℤ) = t.micros + z.initial := by
        refine ⟨⟨(u.micros - z.initial : ℤ).toNat, by omega⟩, ?_⟩
        dsimp only
        omega
      obtain ⟨t, ht⟩ := hinstant
      have hleMicros : o.micros ≤ after.micros := hle
      have hot : o < t := by
        change o.micros < t.micros
        omega
      have hleast : o'.micros ≤ t.micros := hnext.least t hot ⟨u, (wallTime_fixed hfixed).mpr ht, hmatches⟩
      omega
    · exact (ofWallTime_fixed hfixed).mpr hwallEq

theorem addMilliseconds_zero (t : DateTime) : addMilliseconds t 0 = .ok t :=
  (addMilliseconds_eq_ok (n := 0)).mpr (Nat.add_zero _)

theorem computeNextDue_cron (hspec : parseCronExpression platform.digit expr = .ok spec) (hzone : platform.zone tz = some z)
    (after : DateTime) (lastDue : Option DateTime) :
    computeNextDue (scheduleEnv platform) (.cron expr tz staggerMs) after jobId lastDue =
      (nextOccurrence z spec after).bind fun
        | none => .ok none
        | some due => some <$> addMilliseconds due (deterministicCronStaggerMs platform jobId expr staggerMs) := by
  change Except.bind (nextCronOccurrence platform expr tz after) _ = _
  rw [nextCronOccurrence_eq hspec hzone]
  congr 1
  funext found
  cases found with
  | none => rfl
  | some due =>
    by_cases hzero : staggerMs ≤ 0
    · simp only [if_pos hzero, deterministicCronStaggerMs, addMilliseconds_zero]
      rfl
    · simp only [if_neg hzero]
      rfl

theorem addMilliseconds_cancel {t t' due : DateTime} {ms : ℤ} (hms : 0 ≤ ms) (h : addMilliseconds t ms = .ok due)
    (h' : addMilliseconds t' ms = .ok due) : t = t' := by
  obtain ⟨n, rfl⟩ := Int.eq_ofNat_of_zero_le hms
  have hmicros := addMilliseconds_eq_ok.mp h
  have hmicros' := addMilliseconds_eq_ok.mp h'
  refine DateTime.ext ?_
  omega

theorem computeNextDue_staggered (hspec : parseCronExpression platform.digit expr = .ok spec) (hzone : platform.zone tz = some z)
    (hfixed : z.Fixed) {o o' due : DateTime} (hnext : NextAfter z spec o o')
    (hdue : addMilliseconds o (deterministicCronStaggerMs platform jobId expr staggerMs) = .ok due) :
    (∃ due', addMilliseconds o' (deterministicCronStaggerMs platform jobId expr staggerMs) = .ok due' ∧
      computeNextDue (scheduleEnv platform) (.cron expr tz staggerMs) due jobId (some due) = .ok (some due')) ↔
      Reaches z spec (deterministicCronStaggerMs platform jobId expr staggerMs) o o' := by
  have hstagger := deterministicCronStaggerMs_nonneg platform jobId expr staggerMs
  generalize hs : deterministicCronStaggerMs platform jobId expr staggerMs = s at hdue hstagger
  have hle : o ≤ due := le_of_addMilliseconds hstagger hdue
  rw [computeNextDue_cron hspec hzone, hs]
  constructor
  · rintro ⟨due', hdue', h⟩
    cases hfound : nextOccurrence z spec due with
    | error =>
      rw [hfound] at h
      cases h
    | ok found =>
      rw [hfound] at h
      cases found with
      | none => cases h
      | some t =>
        have hsum : addMilliseconds t s = .ok due' := by
          change some <$> addMilliseconds t s = _ at h
          cases hsum : addMilliseconds t s with
          | error =>
            rw [hsum] at h
            cases h
          | ok sum =>
            rw [hsum] at h
            cases h
            rfl
        obtain rfl := addMilliseconds_cancel hstagger hsum hdue'
        obtain ⟨hlt, hwindow⟩ := (nextOccurrence_of_nextAfter hfixed hnext hle).mp hfound
        exact ⟨due, due', hdue, hdue', hlt, hwindow⟩
  · rintro ⟨first, due', hfirst, hdue', hlt, hwindow⟩
    obtain rfl : first = due := Except.ok.inj (hfirst.symm.trans hdue)
    refine ⟨due', hdue', ?_⟩
    rw [(nextOccurrence_of_nextAfter hfixed hnext hle).mpr ⟨hlt, hwindow⟩]
    change some <$> addMilliseconds o' s = _
    rw [hdue']
    rfl

/-- **The due times are those of the occurrences exactly when the search reaches each from the
staggered time of the one before.** -/
theorem visits_iff (hspec : parseCronExpression platform.digit expr = .ok spec) (hzone : platform.zone tz = some z)
    (hfixed : z.Fixed) {o due : DateTime} {os : List DateTime} (hchain : List.IsChain (NextAfter z spec) (o :: os))
    (hdue : addMilliseconds o (deterministicCronStaggerMs platform jobId expr staggerMs) = .ok due) :
    (∃ dues, duesFrom (scheduleEnv platform) (.cron expr tz staggerMs) jobId os.length due = .ok dues ∧
      Staggered (deterministicCronStaggerMs platform jobId expr staggerMs) os dues) ↔
      List.IsChain (Reaches z spec (deterministicCronStaggerMs platform jobId expr staggerMs)) (o :: os) := by
  induction os generalizing o due with
  | nil => exact iff_of_true ⟨[], rfl, .nil⟩ (.singleton o)
  | cons o' os ih =>
    obtain ⟨hnext, hrest⟩ := List.isChain_cons_cons.mp hchain
    have hstep := computeNextDue_staggered hspec hzone hfixed hnext hdue
    rw [List.isChain_cons_cons, ← hstep]
    constructor
    · rintro ⟨dues, hdues, hstaggered⟩
      obtain ⟨found, hfound, hdues⟩ := bind_eq_ok.mp hdues
      cases found with
      | none =>
        cases hdues
        cases hstaggered
      | some next =>
        obtain ⟨later, hlater, hdues⟩ := bind_eq_ok.mp hdues
        cases hdues
        obtain ⟨hfirst, hlaterStaggered⟩ := List.forall₂_cons.mp hstaggered
        exact ⟨⟨next, hfirst, hfound⟩, (ih hrest hfirst).mp ⟨later, hlater, hlaterStaggered⟩⟩
    · rintro ⟨⟨next, hfirst, hfound⟩, hreaches⟩
      obtain ⟨later, hlater, hlaterStaggered⟩ := (ih hrest hfirst).mpr hreaches
      exact ⟨next :: later, bind_eq_ok.mpr ⟨some next, hfound, bind_eq_ok.mpr ⟨later, hlater, rfl⟩⟩, .cons hfirst hlaterStaggered⟩

end

def staggerPlatform : Platform where
  digit := asciiDigit
  zone name := if name = "UTC" then some utc else none
  parseIso _ := none
  seedDigest seed := if seed = "digest:* * * * *" then 1002770398 else 0
  jitterSeed jobId _ := jobId

def tenOClock : DateTime := ⟨63919965600000000, tenOClock_lt_endOfTime⟩

def oneMinuteLater : DateTime := ⟨63919965660000000, by decide⟩

def staggeredTen : DateTime := ⟨63919965767056000, by decide⟩

theorem utc_fixed : utc.Fixed := rfl

theorem wallTime_utc {t w : DateTime} (h : wallTime utc t = some w) : w = t := by
  have hmicros := (wallTime_fixed utc_fixed).mp h
  refine DateTime.ext ?_
  change (w.micros : ℤ) = t.micros + 0 at hmicros
  omega

theorem oneMinuteLater_next : NextAfter utc everyMinute tenOClock oneMinuteLater := by
  refine ⟨by decide, ⟨oneMinuteLater, by decide, by decide, by decide +kernel⟩, ?_⟩
  rintro t hlt ⟨w, hwall, haligned, -⟩
  obtain rfl := wallTime_utc hwall
  have hgrid : tenOClock.micros + stepMicros everyMinute ≤ w.micros := le_of_lt_of_aligned (by decide) haligned hlt
  exact hgrid

theorem staggeredTen_due :
    addMilliseconds tenOClock (deterministicCronStaggerMs staggerPlatform "digest" "* * * * *" 300000) = .ok staggeredTen := by
  decide +kernel

theorem visits_minutes_iff :
    (∃ dues, duesFrom (scheduleEnv staggerPlatform) (.cron "* * * * *" "UTC" 300000) "digest" 1 staggeredTen = .ok dues ∧
      Staggered (deterministicCronStaggerMs staggerPlatform "digest" "* * * * *" 300000) [oneMinuteLater] dues) ↔
      List.IsChain (Reaches utc everyMinute (deterministicCronStaggerMs staggerPlatform "digest" "* * * * *" 300000))
        [tenOClock, oneMinuteLater] :=
  visits_iff everyMinute_parsed (by rfl) utc_fixed (List.isChain_cons_cons.mpr ⟨oneMinuteLater_next, .singleton _⟩) staggeredTen_due

/-- The staggered times of two minutes are skipped. -/
theorem minutes_skipped :
    ¬ ∀ (platform : Platform) (expr tz jobId : String) (staggerMs : ℤ) (z : Zone) (spec : CronSpec),
      parseCronExpression platform.digit expr = .ok spec → platform.zone tz = some z → z.Fixed → 0 ≤ staggerMs →
      ∀ (o due : DateTime) (os : List DateTime), Occurs z spec o → List.IsChain (NextAfter z spec) (o :: os) →
        addMilliseconds o (deterministicCronStaggerMs platform jobId expr staggerMs) = .ok due →
        ∃ dues, duesFrom (scheduleEnv platform) (.cron expr tz staggerMs) jobId os.length due = .ok dues ∧
          Staggered (deterministicCronStaggerMs platform jobId expr staggerMs) os dues := by
  intro h
  obtain ⟨dues, hdues, hstaggered⟩ := h staggerPlatform "* * * * *" "UTC" "digest" 300000 utc everyMinute everyMinute_parsed
    (by rfl) utc_fixed (by decide) tenOClock staggeredTen [oneMinuteLater] ⟨tenOClock, by decide, by decide, by decide +kernel⟩
    (List.isChain_cons_cons.mpr ⟨oneMinuteLater_next, .singleton _⟩) staggeredTen_due
  have hreturned : duesFrom (scheduleEnv staggerPlatform) (.cron "* * * * *" "UTC" 300000) "digest" 1 staggeredTen =
      .ok [⟨63919965947056000, by decide⟩] := by
    decide +kernel
  cases hreturned.symm.trans hdues
  obtain ⟨hsum, -⟩ := List.forall₂_cons.mp hstaggered
  exact absurd hsum (by decide +kernel)

end OpenMinion.StaggeredSchedules
