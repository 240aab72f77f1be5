import OpenMinion.IsoTimestamps
import OpenMinion.PythonText

/-!
# Reading ISO texts

The reading of the texts that `isoformat` writes for an instant in UTC.
-/
namespace OpenMinion.IsoReading
open IsoTimestamps PythonText

def readField (acc : ℕ) : ℕ → List Char → Option (ℕ × List Char)
  | 0, cs => some (acc, cs)
  | _ + 1, [] => none
  | w + 1, c :: cs => if c.isDigit then readField (acc * 10 + (c.toNat - 48)) w cs else none

def readAfter (separator : Char) : List Char → Option (List Char)
  | [] => none
  | c :: cs => if c = separator then some cs else none

def readFraction (cs : List Char) : Option (ℕ × List Char) :=
  match readAfter '.' cs with
  | some rest => readField 0 6 rest
  | none => some (0, cs)

def readClock (cs : List Char) : Option ℕ := do
  let (hour, cs) ← readField 0 2 cs
  let (minute, cs) ← readField 0 2 (← readAfter ':' cs)
  let (second, cs) ← readField 0 2 (← readAfter ':' cs)
  let (us, cs) ← readFraction cs
  if hour < 24 ∧ minute < 60 ∧ second < 60 ∧ cs = "+00:00".toList then
    return ((hour * 60 + minute) * 60 + second) * 1000000 + us
  else none

def readDate (cs : List Char) : Option (ℕ × List Char) := do
  let (year, cs) ← readField 0 4 cs
  let (month, cs) ← readField 0 2 (← readAfter '-' cs)
  let (day, cs) ← readField 0 2 (← readAfter '-' cs)
  if 1 ≤ year ∧ 1 ≤ month ∧ month ≤ 12 ∧ 1 ≤ day ∧ day ≤ daysInMonth (isLeap year) month then
    return (ymdToOrdinal year month day, cs)
  else none

/-- `parse_iso_datetime` of a text in UTC. -/
def readIso (text : String) : Option DateTime := do
  let (ordinal, cs) ← readDate (strip text).toList
  let us ← readClock (← readAfter 'T' cs)
  let micros := microsPerDay * (ordinal - 1) + us
  if h : micros < endOfTime then some ⟨micros, h⟩ else none

theorem readField_add (acc w v : ℕ) (cs : List Char) :
    readField acc (w + v) cs = (readField acc w cs).bind fun read => readField read.1 v read.2 := by
  induction w generalizing acc cs with
  | zero =>
    rw [Nat.zero_add]
    rfl
  | succ w ih =>
    rw [Nat.add_right_comm]
    cases cs with
    | nil => rfl
    | cons c cs =>
      rw [readField, readField]
      split
      · exact ih _ _
      · rfl

theorem digitChar_spec : ∀ d < 10, (Nat.digitChar d).isDigit = true ∧ (Nat.digitChar d).toNat - 48 = d := by
  decide

theorem readField_padded (acc w n : ℕ) (cs : List Char) :
    readField acc w (padded w n ++ cs) = some (acc * 10 ^ w + n % 10 ^ w, cs) := by
  induction w generalizing n cs with
  | zero => simp [readField, padded, Nat.mod_one]
  | succ w ih =>
    obtain ⟨hdigit, hvalue⟩ := digitChar_spec (n % 10) (Nat.mod_lt n (by decide))
    have hmod : n % 10 ^ (w + 1) = n / 10 % 10 ^ w * 10 + n % 10 := by
      rw [pow_succ', Nat.mod_mul]
      omega
    have hvalueSum : (acc * 10 ^ w + n / 10 % 10 ^ w) * 10 + n % 10 = acc * 10 ^ (w + 1) + n % 10 ^ (w + 1) := by
      rw [hmod, pow_succ, Nat.add_mul, Nat.mul_assoc, Nat.add_assoc]
    rw [padded, List.append_assoc, readField_add, ih, Option.bind_some, List.singleton_append, readField, if_pos hdigit, hvalue,
      readField, hvalueSum]

theorem readField_of_lt {w n : ℕ} (h : n < 10 ^ w) (cs : List Char) : readField 0 w (padded w n ++ cs) = some (n, cs) := by
  rw [readField_padded, Nat.zero_mul, Nat.zero_add, Nat.mod_eq_of_lt h]

theorem readAfter_cons (c : Char) (cs : List Char) : readAfter c (c :: cs) = some cs := if_pos rfl

theorem readFraction_fractionChars {us : ℕ} (h : us < 10 ^ 6) :
    readFraction (fractionChars us ++ "+00:00".toList) = some (us, "+00:00".toList) := by
  rw [fractionChars]
  split
  · next hzero =>
    rw [hzero]
    rfl
  · rw [List.cons_append, readFraction, readAfter_cons]
    exact readField_of_lt h _

theorem readClock_clockChars {us : ℕ} (h : us < microsPerDay) : readClock (clockChars us) = some us := by
  rw [microsPerDay] at h
  have hhour : us / 1000000 / 3600 < 10 ^ 2 := by omega
  have hminute : us / 1000000 / 60 % 60 < 10 ^ 2 := by omega
  have hsecond : us / 1000000 % 60 < 10 ^ 2 := by omega
  have hus : us % 1000000 < 10 ^ 6 := by omega
  have hhourLt : us / 1000000 / 3600 < 24 := by omega
  have hminuteLt : us / 1000000 / 60 % 60 < 60 := by omega
  have hsecondLt : us / 1000000 % 60 < 60 := by omega
  have hsum : ((us / 1000000 / 3600 * 60 + us / 1000000 / 60 % 60) * 60 + us / 1000000 % 60) * 1000000 + us % 1000000 = us := by
    omega
  simp only [readClock, clockChars, readField_of_lt hhour, readField_of_lt hminute, readField_of_lt hsecond, readAfter_cons,
    readFraction_fractionChars hus, Option.bind_eq_bind, Option.bind_some, hhourLt, hminuteLt, hsecondLt, and_self, if_true]
  exact congrArg some hsum

theorem readDate_isoChars (t : DateTime) :
    readDate (isoChars t) = some (t.ordinal, 'T' :: clockChars t.microOfDay) := by
  obtain ⟨hyear, hmonth, hday⟩ := isoDate_lt t
  obtain ⟨hv, hordinal⟩ := ordinalToYmd_spec (Nat.le_add_left 1 (t.micros / microsPerDay))
  change ymdToOrdinal (ordinalToYmd t.ordinal).1 (ordinalToYmd t.ordinal).2.1 (ordinalToYmd t.ordinal).2.2 = t.ordinal at hordinal
  simp only [readDate, isoChars, readField_of_lt hyear, readField_of_lt hmonth, readField_of_lt hday, readAfter_cons,
    Option.bind_eq_bind, Option.bind_some]
  rw [if_pos ⟨hv.year, hv.month, hv.month_le, hv.day, hv.day_le⟩, hordinal]
  rfl

theorem isSpace_digitChar : ∀ d < 10, isSpace (Nat.digitChar d) = false := by
  decide

theorem isSpace_padded (w n : ℕ) : ∀ c ∈ padded w n, isSpace c = false := by
  induction w generalizing n with
  | zero => exact fun c hc => absurd hc List.not_mem_nil
  | succ w ih =>
    intro c hc
    rcases List.mem_append.mp hc with hc | hc
    · exact ih _ c hc
    · rw [List.mem_singleton.mp hc]
      exact isSpace_digitChar _ (Nat.mod_lt n (by decide))

theorem strip_toIsoUtc (t : DateTime) : strip (toIsoUtc t) = toIsoUtc t := by
  have hchars : stripChars (isoChars t) = isoChars t := by
    refine stripChars_eq_self ?_ ?_
    · intro c hc
      rw [isoChars, List.head?_append] at hc
      obtain ⟨d, hd⟩ : ∃ d, (padded 4 (ordinalToYmd t.ordinal).1).head? = some d := ⟨_, rfl⟩
      rw [hd] at hc
      cases hc
      exact isSpace_padded _ _ c (List.mem_of_head? hd)
    · intro c hc
      have hlast : (isoChars t).getLast? = some '0' := by
        simp [isoChars, clockChars, List.getLast?_append, List.getLast?_cons]
      rw [hlast] at hc
      cases hc
      decide
  rw [strip, toIsoUtc, String.toList_ofList, hchars]

theorem ordinal_sub_one (t : DateTime) : microsPerDay * (t.ordinal - 1) + t.microOfDay = t.micros := by
  rw [DateTime.ordinal, DateTime.microOfDay, Nat.add_sub_cancel]
  exact Nat.div_add_mod t.micros microsPerDay

theorem readIso_eq_some {text : String} {ordinal us : ℕ} {rest : List Char} {t : DateTime}
    (hdate : readDate (strip text).toList = some (ordinal, 'T' :: rest)) (hclock : readClock rest = some us)
    (hmicros : microsPerDay * (ordinal - 1) + us = t.micros) : readIso text = some t := by
  have hin : microsPerDay * (ordinal - 1) + us < endOfTime := by
    rw [hmicros]
    exact t.inRange
  have hmk : ∀ m (h : m < endOfTime), m = t.micros → some (⟨m, h⟩ : DateTime) = some t := by
    rintro m h rfl
    rfl
  rw [readIso, hdate]
  simp only [Option.bind_eq_bind, Option.bind_some, readAfter_cons, hclock]
  exact (dif_pos hin).trans (hmk _ hin hmicros)

theorem readIso_toIsoUtc (t : DateTime) : readIso (toIsoUtc t) = some t := by
  have hdate : readDate (strip (toIsoUtc t)).toList = some (t.ordinal, 'T' :: clockChars t.microOfDay) := by
    rw [strip_toIsoUtc, toIsoUtc, String.toList_ofList, readDate_isoChars]
  exact readIso_eq_some hdate (readClock_clockChars (Nat.mod_lt t.micros (by decide))) (ordinal_sub_one t)

end OpenMinion.IsoReading
