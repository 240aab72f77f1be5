import OpenMinion.CronExpressions
import OpenMinion.CronSchedules
import OpenMinion.WallClocks

/-!
# The next occurrence of a cron expression

The search steps through wall-clock times and reads the first that matches as an instant, which need not be the next at
which the clock of the zone shows a matching time.
-/
namespace OpenMinion.CronOccurrences
open CronExpressions CronSchedules IsoTimestamps SessionTables WallClocks

def ofMicros (m : ℤ) : Option DateTime :=
  if h : 0 ≤ m ∧ m.toNat < endOfTime then some ⟨m.toNat, h.2⟩ else none

/-- `t.astimezone(tz)`, as a wall-clock time. -/
def wallTime (z : Zone) (t : DateTime) : Option DateTime := ofMicros (z.wall t.micros)

/-- `cursor.astimezone(timezone.utc)` of a wall-clock time whose `fold` is 0. -/
def ofWallTime (z : Zone) (w : DateTime) : Option DateTime := ofMicros (z.instant w.micros)

def stepMicros (spec : CronSpec) : ℕ := if spec.hasSeconds then 1000000 else 60000000

/-- `replace(second=0, microsecond=0)`, or only the microseconds. -/
def truncated (step : ℕ) (w : DateTime) : DateTime := ⟨w.micros - w.micros % step, (Nat.sub_le _ _).trans_lt w.inRange⟩

/-- `timedelta(days=366 * 5)`. -/
def searchMicros : ℕ := 366 * 5 * microsPerDay

def searchWindow (z : Zone) (spec : CronSpec) (after : DateTime) : Option (DateTime × DateTime) := do
  let wall ← wallTime z after
  let cursor := truncated (stepMicros spec) (← wall.addMicros (stepMicros spec))
  let limit ← cursor.addMicros searchMicros
  return (cursor, limit)

/-- The loop of `_next_cron_occurrence`; the fuel exceeds its iterations. -/
def searchFrom (spec : CronSpec) (limit : DateTime) : ℕ → DateTime → Except StoreError (Option DateTime)
  | 0, _ => .ok none
  | fuel + 1, cursor =>
    if limit < cursor then .ok none
    else if cronMatches spec cursor then .ok (some cursor)
    else do
      let next ← orOverflow (cursor.addMicros (stepMicros spec))
      searchFrom spec limit fuel next

/-- `_next_cron_occurrence` of a parsed expression in a loaded zone. -/
def nextOccurrence (z : Zone) (spec : CronSpec) (after : DateTime) : Except StoreError (Option DateTime) := do
  let (cursor, limit) ← match searchWindow z spec after with
    | some window => .ok window
    | none => .error .overflowError
  match ← searchFrom spec limit ((limit.micros - cursor.micros) / stepMicros spec + 2) cursor with
  | none => return none
  | some w => some <$> orOverflow (ofWallTime z w)

variable {z : Zone} {spec : CronSpec}

theorem stepMicros_pos (spec : CronSpec) : 0 < stepMicros spec := by
  rw [stepMicros]
  split <;> decide

theorem addMicros_eq_none {t : DateTime} {d : ℕ} : t.addMicros d = none ↔ endOfTime ≤ t.micros + d := by
  change (if h : d + t.micros < endOfTime then some (⟨d + t.micros, h⟩ : DateTime) else none) = none ↔ _
  split
  · next h =>
    constructor
    · intro heq
      cases heq
    · intro hle
      omega
  · next h =>
    refine iff_of_true rfl ?_
    omega

theorem ofMicros_eq_some {m : ℤ} {t : DateTime} : ofMicros m = some t ↔ (t.micros : ℤ) = m := by
  have hin := t.inRange
  rw [ofMicros]
  split
  · next h =>
    rw [Option.some.injEq, DateTime.ext_iff]
    dsimp only
    omega
  · next h =>
    constructor
    · intro heq
      cases heq
    · intro heq
      omega

/-- A wall-clock time that the expression matches, to the minute or to the second. -/
def Matches (spec : CronSpec) (w : DateTime) : Prop := w.micros % stepMicros spec = 0 ∧ cronMatches spec w = true

/-- The first match between two wall-clock times. -/
structure FirstMatch (spec : CronSpec) (cursor limit w : DateTime) : Prop where
  le : cursor ≤ w
  le_limit : w ≤ limit
  isMatch : Matches spec w
  first : ∀ v, cursor ≤ v → v < w → ¬ Matches spec v

theorem FirstMatch.unique {cursor limit w w' : DateTime} (h : FirstMatch spec cursor limit w)
    (h' : FirstMatch spec cursor limit w') : w = w' := by
  refine le_antisymm (not_lt.mp fun hlt => ?_) (not_lt.mp fun hlt => ?_)
  · exact h.first w' h'.le hlt h'.isMatch
  · exact h'.first w h.le hlt h.isMatch

/-- What the loop returns: the first match, nothing when there is none, or the error of a sum that
leaves the calendar behind the limit. -/
inductive Searched (spec : CronSpec) (cursor limit : DateTime) : Except StoreError (Option DateTime) → Prop where
  | found (w : DateTime) (h : FirstMatch spec cursor limit w) : Searched spec cursor limit (.ok (some w))
  | nothing (h : ∀ w, cursor ≤ w → w ≤ limit → ¬ Matches spec w) (hlimit : limit.micros + stepMicros spec < endOfTime) :
    Searched spec cursor limit (.ok none)
  | overflow (h : ∀ w, cursor ≤ w → w ≤ limit → ¬ Matches spec w) (hlimit : endOfTime ≤ limit.micros + stepMicros spec) :
    Searched spec cursor limit (.error .overflowError)

theorem micros_truncated {step m : ℕ} (hstep : 0 < step) {next : DateTime} (h : next.micros = m + step) :
    (truncated step next).micros = (m / step + 1) * step := by
  have hdiv := Nat.div_add_mod (m + step) step
  rw [Nat.add_div_right m hstep, Nat.mul_comm, ← h] at hdiv
  exact Nat.sub_eq_of_eq_add hdiv.symm

theorem le_of_lt_of_aligned {step a b : ℕ} (ha : a % step = 0) (hb : b % step = 0) (h : a < b) : a + step ≤ b := by
  obtain ⟨k, rfl⟩ := Nat.dvd_of_mod_eq_zero ha
  obtain ⟨l, rfl⟩ := Nat.dvd_of_mod_eq_zero hb
  have hlt : k < l := Nat.lt_of_mul_lt_mul_left h
  calc step * k + step = step * (k + 1) := (Nat.mul_succ step k).symm
    _ ≤ step * l := Nat.mul_le_mul_left step hlt

theorem searched {limit : DateTime} (hlimit : limit.micros % stepMicros spec = 0) {fuel : ℕ} {cursor : DateTime}
    (hcursor : cursor.micros % stepMicros spec = 0) (hle : cursor.micros ≤ limit.micros + stepMicros spec)
    (hfuel : limit.micros + stepMicros spec < cursor.micros + fuel * stepMicros spec) :
    Searched spec cursor limit (searchFrom spec limit fuel cursor) := by
  have hpos := stepMicros_pos spec
  induction fuel generalizing cursor with
  | zero =>
    rw [Nat.zero_mul] at hfuel
    omega
  | succ fuel ih =>
    rw [searchFrom]
    by_cases hend : limit < cursor
    · rw [if_pos hend]
      have hbehind := le_of_lt_of_aligned hlimit hcursor hend
      have hin := cursor.inRange
      exact .nothing (fun w hw hw' => absurd (hw.trans hw') (not_le.mpr hend)) (by omega)
    · rw [if_neg hend]
      by_cases hmatch : cronMatches spec cursor = true
      · rw [if_pos hmatch]
        exact .found cursor ⟨le_refl _, not_lt.mp hend, ⟨hcursor, hmatch⟩, fun v hv hv' => absurd hv (not_le.mpr hv')⟩
      · rw [if_neg hmatch]
        have hnot : ¬ Matches spec cursor := fun h => hmatch h.2
        have hstep : ∀ v : DateTime, cursor ≤ v → Matches spec v → cursor.micros + stepMicros spec ≤ v.micros := by
          intro v hv hmatches
          have hlt : cursor < v := lt_of_le_of_ne hv fun heq => hnot (heq ▸ hmatches)
          exact le_of_lt_of_aligned hcursor hmatches.1 hlt
        have hcursorLe : cursor.micros ≤ limit.micros := not_lt.mp hend
        cases hnext : cursor.addMicros (stepMicros spec) with
        | none =>
          have hout := addMicros_eq_none.mp hnext
          refine .overflow (fun w hw hw' hmatches => ?_) (by omega)
          have hbehind := hstep w hw hmatches
          have hin := w.inRange
          omega
        | some next =>
          have hmicros := addMicros_eq_some.mp hnext
          have hrest : Searched spec next limit (searchFrom spec limit fuel next) :=
            ih (by rw [hmicros, Nat.add_mod_right, hcursor]) (by omega) (by rw [Nat.succ_mul] at hfuel; omega)
          -- nothing matches between the cursor and the next time
          have hbefore : ∀ v, cursor ≤ v → Matches spec v → next ≤ v := by
            intro v hv hmatches
            have hbehind := hstep v hv hmatches
            change next.micros ≤ v.micros
            omega
          have hcursorNext : cursor ≤ next := by
            change cursor.micros ≤ next.micros
            omega
          change Searched spec cursor limit (searchFrom spec limit fuel next)
          generalize searchFrom spec limit fuel next = result at hrest
          cases hrest with
          | found w h =>
            refine .found w ⟨hcursorNext.trans h.le, h.le_limit, h.isMatch, fun v hv hv' hmatches => ?_⟩
            exact h.first v (hbefore v hv hmatches) hv' hmatches
          | nothing h hin => exact .nothing (fun w hw hw' hmatches => h w (hbefore w hw hmatches) hw' hmatches) hin
          | overflow h hin => exact .overflow (fun w hw hw' hmatches => h w (hbefore w hw hmatches) hw' hmatches) hin

/-- The window begins at the first time of the grid after the present wall-clock time. -/
structure InWindow (z : Zone) (spec : CronSpec) (after cursor limit wall : DateTime) : Prop where
  wall_eq : wallTime z after = some wall
  cursor_eq : cursor.micros = (wall.micros / stepMicros spec + 1) * stepMicros spec
  limit_eq : limit.micros = cursor.micros + searchMicros

theorem searchWindow_eq_some {after cursor limit : DateTime} :
    searchWindow z spec after = some (cursor, limit) ↔ ∃ wall, InWindow z spec after cursor limit wall := by
  have hpos := stepMicros_pos spec
  rw [searchWindow]
  simp only [Option.bind_eq_bind, Option.bind_eq_some_iff, Option.pure_def, Option.some.injEq, Prod.mk.injEq]
  constructor
  · rintro ⟨wall, hwall, next, hnext, last, hlast, rfl, rfl⟩
    exact ⟨wall, hwall, micros_truncated hpos (addMicros_eq_some.mp hnext), addMicros_eq_some.mp hlast⟩
  · rintro ⟨wall, hwall, hcursor, hlimit⟩
    have hmod := Nat.div_add_mod wall.micros (stepMicros spec)
    have hlt := Nat.mod_lt wall.micros hpos
    have hin := limit.inRange
    have hday : stepMicros spec ≤ searchMicros := by
      rw [stepMicros]
      split <;> decide
    have hgrid : (wall.micros / stepMicros spec + 1) * stepMicros spec =
        stepMicros spec * (wall.micros / stepMicros spec) + stepMicros spec := by
      rw [Nat.mul_comm, Nat.mul_succ]
    have hnextIn : wall.micros + stepMicros spec < endOfTime := by omega
    have hfirst : truncated (stepMicros spec) ⟨wall.micros + stepMicros spec, hnextIn⟩ = cursor :=
      DateTime.ext ((micros_truncated hpos rfl).trans hcursor.symm)
    refine ⟨wall, hwall, ⟨wall.micros + stepMicros spec, hnextIn⟩, addMicros_eq_some.mpr rfl, limit, ?_, hfirst, rfl⟩
    rw [hfirst]
    exact addMicros_eq_some.mpr hlimit

theorem searchWindow_spec {after cursor limit : DateTime} (h : searchWindow z spec after = some (cursor, limit)) :
    Searched spec cursor limit (searchFrom spec limit ((limit.micros - cursor.micros) / stepMicros spec + 2) cursor) := by
  obtain ⟨wall, -, hcursor, hlimit⟩ := searchWindow_eq_some.mp h
  have hpos := stepMicros_pos spec
  have hcursorMod : cursor.micros % stepMicros spec = 0 := by rw [hcursor, Nat.mul_mod_left]
  have hday : searchMicros % stepMicros spec = 0 := by
    rw [stepMicros]
    split <;> decide
  have hlimitMod : limit.micros % stepMicros spec = 0 := by rw [hlimit, Nat.add_mod, hcursorMod, hday, Nat.zero_mod]
  refine searched hlimitMod hcursorMod (by omega) ?_
  have hdiv := Nat.div_add_mod (limit.micros - cursor.micros) (stepMicros spec)
  have hlt := Nat.mod_lt (limit.micros - cursor.micros) hpos
  rw [Nat.add_mul, Nat.mul_comm]
  omega

theorem nextOccurrence_eq {after cursor limit : DateTime} (h : searchWindow z spec after = some (cursor, limit)) :
    nextOccurrence z spec after =
      (searchFrom spec limit ((limit.micros - cursor.micros) / stepMicros spec + 2) cursor).bind fun
        | none => .ok none
        | some w => some <$> orOverflow (ofWallTime z w) := by
  rw [nextOccurrence, h]
  change Except.bind (searchFrom spec limit _ cursor) _ = _
  congr 1

theorem nextOccurrence_eq_some {after t : DateTime} :
    nextOccurrence z spec after = .ok (some t) ↔
      ∃ cursor limit w, searchWindow z spec after = some (cursor, limit) ∧ FirstMatch spec cursor limit w ∧
        ofWallTime z w = some t := by
  cases hwindow : searchWindow z spec after with
  | none =>
    rw [nextOccurrence, hwindow]
    exact iff_of_false (fun h => nomatch h) fun ⟨_, _, _, h, _⟩ => nomatch h
  | some window =>
    obtain ⟨cursor, limit⟩ := window
    rw [nextOccurrence_eq hwindow]
    have hsearched := searchWindow_spec hwindow
    generalize searchFrom spec limit ((limit.micros - cursor.micros) / stepMicros spec + 2) cursor = result at hsearched
    constructor
    · intro h
      cases hsearched with
      | found w hfirst =>
        cases hread : ofWallTime z w with
        | none =>
          simp only [Except.bind, hread, orOverflow] at h
          cases h
        | some u =>
          simp only [Except.bind, hread, orOverflow] at h
          cases h
          exact ⟨cursor, limit, w, rfl, hfirst, hread⟩
      | nothing => cases h
      | overflow => cases h
    · rintro ⟨cursor', limit', w, heq, hfirst, hread⟩
      cases heq
      cases hsearched with
      | found w' hfirst' =>
        obtain rfl := hfirst'.unique hfirst
        simp only [Except.bind, hread, orOverflow]
        rfl
      | nothing hnone => exact absurd hfirst.isMatch (hnone w hfirst.le hfirst.le_limit)
      | overflow hnone => exact absurd hfirst.isMatch (hnone w hfirst.le hfirst.le_limit)

section
variable (z spec) (after limit : DateTime)

def Occurs (t : DateTime) : Prop := ∃ w, wallTime z t = some w ∧ Matches spec w

/-- An occurrence after `after` that the clock shows before the search ends. -/
def Candidate (t : DateTime) : Prop := after < t ∧ ∃ w, wallTime z t = some w ∧ Matches spec w ∧ w ≤ limit

def Returned : Except StoreError (Option DateTime) → Prop
  | .ok (some t) => Candidate z spec after limit t ∧ ∀ t', Candidate z spec after limit t' → t ≤ t'
  | .ok none => ∀ t, ¬ Candidate z spec after limit t
  | .error _ => False

/-- A matching time that is not behind the limit. -/
def MatchAt (m : ℤ) : Prop := ∃ w : DateTime, (w.micros : ℤ) = m ∧ Matches spec w ∧ w ≤ limit

/-- The clock is not turned so that a matching time is skipped or shown again. -/
def ClockAgrees : Prop :=
  ∃ cursor limit, searchWindow z spec after = some (cursor, limit) ∧
    ((∃ w, FirstMatch spec cursor limit w ∧
        Undisturbed (MatchAt spec limit) cursor.micros w.micros endOfTime z.initial z.transitions (after.micros + 1)) ∨
      (∀ w, cursor ≤ w → w ≤ limit → ¬ Matches spec w) ∧ limit.micros + stepMicros spec < endOfTime ∧
        NeverRepeated (MatchAt spec limit) cursor.micros endOfTime z.initial z.transitions (after.micros + 1))

/-- The next occurrence of a parsed expression is right. -/
def NextCorrect : Prop :=
  ∃ cursor limit, searchWindow z spec after = some (cursor, limit) ∧ Returned z spec after limit (nextOccurrence z spec after)

end

theorem candidate_iff {after limit t : DateTime} : Candidate z spec after limit t ↔
    (t.micros : ℤ) ∈ shownAt (MatchAt spec limit) endOfTime z.initial z.transitions (after.micros + 1) := by
  have hin : (t.micros : ℤ) < endOfTime := by exact_mod_cast t.inRange
  have hlater : after < t ↔ (after.micros : ℤ) + 1 ≤ t.micros := by
    rw [DateTime.lt_iff]
    omega
  rw [Candidate, hlater]
  refine and_congr_right fun _ => ?_
  simp only [hin, true_and, wallTime, ofMicros_eq_some]
  rfl

theorem instant_of_shown {after limit : DateTime} {u : ℤ}
    (h : u ∈ shownAt (MatchAt spec limit) endOfTime z.initial z.transitions (after.micros + 1)) : ∃ t : DateTime, (t.micros : ℤ) = u := by
  obtain ⟨hsince, hending, -⟩ := h
  exact ⟨⟨u.toNat, by omega⟩, by simp; omega⟩

theorem returned_found_iff {after limit w : DateTime} :
    Returned z spec after limit (some <$> orOverflow (ofWallTime z w)) ↔
      IsLeast (shownAt (MatchAt spec limit) endOfTime z.initial z.transitions (after.micros + 1)) (z.instant w.micros) := by
  cases hread : ofWallTime z w with
  | none =>
    refine iff_of_false id fun hleast => ?_
    obtain ⟨t, ht⟩ := instant_of_shown hleast.1
    rw [ofWallTime, ofMicros_eq_some.mpr ht] at hread
    cases hread
  | some u =>
    change Candidate z spec after limit u ∧ (∀ t, Candidate z spec after limit t → u ≤ t) ↔ _
    rw [← ofMicros_eq_some.mp hread, candidate_iff]
    refine and_congr_right fun _ => ⟨fun hleast v hv => ?_, fun hleast t ht => ?_⟩
    · obtain ⟨t, rfl⟩ := instant_of_shown hv
      have hle : u.micros ≤ t.micros := hleast t (candidate_iff.mpr hv)
      omega
    · have hle : (u.micros : ℤ) ≤ t.micros := hleast (candidate_iff.mp ht)
      exact Int.ofNat_le.mp hle

theorem nextCorrect_iff (z : Zone) (spec : CronSpec) (after : DateTime) :
    NextCorrect z spec after ↔ ClockAgrees z spec after := by
  refine exists₂_congr fun cursor limit => and_congr_right fun hwindow => ?_
  rw [nextOccurrence_eq hwindow]
  have hsearched := searchWindow_spec hwindow
  generalize searchFrom spec limit ((limit.micros - cursor.micros) / stepMicros spec + 2) cursor = result at hsearched
  cases hsearched with
  | found w hfirst =>
    have hmatch : MatchAt spec limit w.micros := ⟨w, rfl, hfirst.isMatch, hfirst.le_limit⟩
    have hnone : ∀ m : ℤ, cursor.micros ≤ m → m < w.micros → ¬ MatchAt spec limit m := by
      rintro m hle hlt ⟨v, rfl, hv, -⟩
      exact hfirst.first v (Int.ofNat_le.mp hle) (Int.ofNat_lt.mp hlt) hv
    have hundisturbed : Undisturbed (MatchAt spec limit) cursor.micros w.micros endOfTime z.initial z.transitions
        (after.micros + 1) ↔ _ := undisturbed_iff hmatch hnone z.initial z.ordered (after.micros + 1)
    refine (returned_found_iff.trans hundisturbed.symm).trans ⟨fun h => .inl ⟨w, hfirst, h⟩, ?_⟩
    rintro (⟨w', hfirst', h⟩ | ⟨hnot, -⟩)
    · rwa [hfirst.unique hfirst']
    · exact absurd hfirst.isMatch (hnot w hfirst.le hfirst.le_limit)
  | nothing hnot hin =>
    have hnone : ∀ m : ℤ, cursor.micros ≤ m → ¬ MatchAt spec limit m := by
      rintro m hle ⟨v, rfl, hv, hlimit⟩
      exact hnot v (Int.ofNat_le.mp hle) hlimit hv
    have hreturned : (∀ t, ¬ Candidate z spec after limit t) ↔
        NeverRepeated (MatchAt spec limit) cursor.micros endOfTime z.initial z.transitions (after.micros + 1) := by
      rw [neverRepeated_iff hnone]
      refine ⟨fun h u hu => ?_, fun h t ht => h _ (candidate_iff.mp ht)⟩
      obtain ⟨t, rfl⟩ := instant_of_shown hu
      exact h t (candidate_iff.mpr hu)
    refine hreturned.trans ⟨fun h => .inr ⟨hnot, hin, h⟩, ?_⟩
    rintro (⟨w, hfirst, -⟩ | ⟨-, -, h⟩)
    · exact absurd hfirst.isMatch (hnot w hfirst.le hfirst.le_limit)
    · exact h
  | overflow hnot hout =>
    refine iff_of_false id ?_
    rintro (⟨w, hfirst, -⟩ | ⟨-, hin, -⟩)
    · exact hnot w hfirst.le hfirst.le_limit hfirst.isMatch
    · exact absurd hin (not_lt.mpr hout)

theorem wallTime_fixed (hfixed : z.Fixed) {t w : DateTime} :
    wallTime z t = some w ↔ (w.micros : ℤ) = t.micros + z.initial := by
  rw [wallTime, ofMicros_eq_some, hfixed.wall_eq]

theorem ofWallTime_fixed (hfixed : z.Fixed) {t w : DateTime} :
    ofWallTime z w = some t ↔ (w.micros : ℤ) = t.micros + z.initial := by
  rw [ofWallTime, ofMicros_eq_some, hfixed.instant_eq]
  omega

theorem lt_of_nextOccurrence (hfixed : z.Fixed) {after t : DateTime} (h : nextOccurrence z spec after = .ok (some t)) :
    after < t := by
  obtain ⟨cursor, limit, w, hwindow, hfirst, hread⟩ := nextOccurrence_eq_some.mp h
  obtain ⟨wall, hwall, hcursor, -⟩ := searchWindow_eq_some.mp hwindow
  have hmod := Nat.div_add_mod wall.micros (stepMicros spec)
  have hlt := Nat.mod_lt wall.micros (stepMicros_pos spec)
  rw [Nat.mul_comm, Nat.mul_succ] at hcursor
  have hwallEq := (wallTime_fixed hfixed).mp hwall
  have hreadEq := (ofWallTime_fixed hfixed).mp hread
  have hcursorLe : cursor.micros ≤ w.micros := hfirst.le
  rw [DateTime.lt_iff]
  omega

/-- A clock that is never turned disturbs no search. -/
theorem undisturbed_fixed (hfixed : z.Fixed) {after cursor limit w t : DateTime}
    (hwindow : searchWindow z spec after = some (cursor, limit)) (hfirst : FirstMatch spec cursor limit w)
    (hread : ofWallTime z w = some t) :
    Undisturbed (MatchAt spec limit) cursor.micros w.micros endOfTime z.initial z.transitions (after.micros + 1) := by
  have hlater : after < t := by
    refine lt_of_nextOccurrence hfixed (nextOccurrence_eq_some.mpr ⟨cursor, limit, w, hwindow, hfirst, hread⟩)
  obtain ⟨wall, hwall, hcursor, -⟩ := searchWindow_eq_some.mp hwindow
  have hpos := stepMicros_pos spec
  have hmod := Nat.div_add_mod wall.micros (stepMicros spec)
  have hlt := Nat.mod_lt wall.micros hpos
  have hwallEq := (wallTime_fixed hfixed).mp hwall
  have hreadEq := (ofWallTime_fixed hfixed).mp hread
  have hin := t.inRange
  rw [DateTime.lt_iff] at hlater
  have hunturned : z.transitions = [] := hfixed
  rw [hunturned]
  refine ⟨by omega, by omega, ?_⟩
  rintro u hsince - hbefore ⟨v, hv, hmatch, -⟩
  -- no time of the grid lies between the present wall-clock time and the window
  have hcursorMod : cursor.micros % stepMicros spec = 0 := by rw [hcursor, Nat.mul_mod_left]
  have hgrid := le_of_lt_of_aligned hmatch.1 hcursorMod (by omega)
  rw [Nat.mul_comm, Nat.mul_succ] at hcursor
  omega

structure Platform where
  /-- The decimal digits of `str` patterns. -/
  digit : Char → Option ℕ
  /-- `ZoneInfo(name)`, `none` when it is not found. -/
  zone : String → Option Zone
  /-- `parse_iso_datetime`, `none` when it raises. -/
  parseIso : String → Option DateTime
  /-- `int(hashlib.sha256(seed).hexdigest()[:8], 16)`. -/
  seedDigest : String → ℕ
  /-- The seed of a job's jitter: its id and `int(dt.timestamp() * 1000)`. -/
  jitterSeed : String → DateTime → String

def loadTimezone (platform : Platform) (name : String) : Except StoreError Zone :=
  match platform.zone name with
  | some z => .ok z
  | none => .error (.valueError ("unknown timezone: " ++ name))

def nextCronOccurrence (platform : Platform) (expr tzName : String) (after : DateTime) : Except StoreError (Option DateTime) := do
  let spec ← parseCronExpression platform.digit expr
  let z ← loadTimezone platform tzName
  nextOccurrence z spec after

def deterministicJitterMs (platform : Platform) (jobId : String) (t : DateTime) (jitterMs : ℤ) : ℤ :=
  if jitterMs ≤ 0 then 0 else (platform.seedDigest (platform.jitterSeed jobId t) : ℤ) % (jitterMs + 1)

def deterministicCronStaggerMs (platform : Platform) (jobId expr : String) (staggerMs : ℤ) : ℤ :=
  if staggerMs ≤ 0 then 0 else (platform.seedDigest (jobId ++ ":" ++ expr) : ℤ) % (staggerMs + 1)

def scheduleEnv (platform : Platform) : ScheduleEnv where
  parseIso := platform.parseIso
  jitterMs := deterministicJitterMs platform
  nextCronOccurrence := nextCronOccurrence platform
  staggerMs := deterministicCronStaggerMs platform

theorem nextCronOccurrence_eq {platform : Platform} {expr tzName : String}
    (hspec : parseCronExpression platform.digit expr = .ok spec) (hzone : platform.zone tzName = some z) (after : DateTime) :
    nextCronOccurrence platform expr tzName after = nextOccurrence z spec after := by
  rw [nextCronOccurrence, hspec]
  change (loadTimezone platform tzName).bind _ = _
  rw [loadTimezone, hzone]
  rfl

/-- `_next_cron_occurrence` returns the least instant after `after` at which the clock of the zone
shows a matching time before the search ends, and `None` when there is none. -/
def NextCronCorrect (platform : Platform) (expr tzName : String) (z : Zone) (spec : CronSpec) (after : DateTime) : Prop :=
  ∃ cursor limit, searchWindow z spec after = some (cursor, limit) ∧
    Returned z spec after limit (nextCronOccurrence platform expr tzName after)

/-- **The next occurrence is right exactly when the clock is not turned under the search.** -/
theorem nextCronCorrect_iff {platform : Platform} {expr tzName : String}
    (hspec : parseCronExpression platform.digit expr = .ok spec) (hzone : platform.zone tzName = some z) (after : DateTime) :
    NextCronCorrect platform expr tzName z spec after ↔ ClockAgrees z spec after := by
  rw [NextCronCorrect, nextCronOccurrence_eq hspec hzone]
  exact nextCorrect_iff z spec after

def turnedBack : Zone := ⟨3600000000, [(63919965600000000, 0)], List.pairwise_singleton _ _⟩

def turnedBackPlatform : Platform where
  digit := asciiDigit
  zone name := if name = "Turned/Back" then some turnedBack else none
  parseIso _ := none
  seedDigest _ := 0
  jitterSeed jobId _ := jobId

def repeatedHour : DateTime := ⟨63919966200000000, by decide⟩

def everyMinute : CronSpec :=
  ⟨false, [0], List.range' 0 60, List.range' 0 24, List.range' 1 31, List.range' 1 12, List.range' 0 7, true, true⟩

theorem everyMinute_parsed : parseCronExpression asciiDigit "* * * * *" = .ok everyMinute := by
  decide +kernel

def firstReading : DateTime := ⟨63919962660000000, by decide⟩

theorem turnedBack_returned :
    nextCronOccurrence turnedBackPlatform "* * * * *" "Turned/Back" repeatedHour = .ok (some firstReading) := by
  decide +kernel

/-- The next minute comes before the present one. -/
theorem occurrence_before_after :
    ¬ ∀ (platform : Platform) (expr tzName : String) (z : Zone) (spec : CronSpec) (after : DateTime),
      parseCronExpression platform.digit expr = .ok spec → platform.zone tzName = some z →
      NextCronCorrect platform expr tzName z spec after := by
  intro h
  obtain ⟨cursor, limit, -, hreturned⟩ :=
    h turnedBackPlatform "* * * * *" "Turned/Back" turnedBack everyMinute repeatedHour everyMinute_parsed (by rfl)
  rw [turnedBack_returned] at hreturned
  exact absurd hreturned.1.1 (by decide)

theorem turnedBack_agrees_iff :
    NextCronCorrect turnedBackPlatform "* * * * *" "Turned/Back" turnedBack everyMinute repeatedHour ↔
      ClockAgrees turnedBack everyMinute repeatedHour :=
  nextCronCorrect_iff everyMinute_parsed (by rfl) repeatedHour

end OpenMinion.CronOccurrences
