import Mathlib.Algebra.Order.Group.Unbundled.Int
import OpenMinion.IsoReading

/-!
# Aware timestamps

`to_iso_utc` takes an aware datetime to UTC and writes it, and `parse_iso_datetime` reads the text. A datetime whose
instant lies outside the years that a datetime has cannot be taken to UTC.
-/
namespace OpenMinion.AwareTimestamps
open IsoTimestamps IsoReading PythonText

/-- An aware `datetime`: the microseconds that its clock shows since the first of January of year 1,
and those by which it is ahead of UTC. -/
structure AwareDateTime where
  clock : ℕ
  inRange : clock < endOfTime
  offset : ℤ
  offset_lt : |offset| < microsPerDay

def AwareDateTime.instant (a : AwareDateTime) : ℤ := a.clock - a.offset

/-- `dt.astimezone(timezone.utc)`; outside years 1 to 9999 it raises `OverflowError`. -/
def astimezoneUtc (a : AwareDateTime) : Option DateTime := DateTime.addMicros ⟨a.clock, a.inRange⟩ (-a.offset)

def toIsoUtc (a : AwareDateTime) : Option String := (astimezoneUtc a).map IsoTimestamps.toIsoUtc

def ofUtc (t : DateTime) : AwareDateTime where
  clock := t.micros
  inRange := t.inRange
  offset := 0
  offset_lt := by decide

/-- `raw.replace("Z", "+00:00")`. -/
def replaceZ (cs : List Char) : List Char := cs.flatMap fun c => if c = 'Z' then ['+', '0', '0', ':', '0', '0'] else [c]

def parseIsoDatetime (value : String) : Option AwareDateTime :=
  let raw := strip value
  if raw = "" then none else (readIso (String.ofList (replaceZ raw.toList))).map ofUtc

def AwareDateTime.InUtcYears (a : AwareDateTime) : Prop := 0 ≤ a.instant ∧ a.instant < endOfTime

theorem astimezoneUtc_eq_some_iff {a : AwareDateTime} {t : DateTime} : astimezoneUtc a = some t ↔ (t.micros : ℤ) = a.instant := by
  rw [astimezoneUtc, addMicros_eq_some_iff, AwareDateTime.instant, Int.sub_eq_add_neg]

theorem astimezoneUtc_isSome_iff {a : AwareDateTime} : (∃ t, astimezoneUtc a = some t) ↔ a.InUtcYears := by
  simp only [astimezoneUtc_eq_some_iff]
  constructor
  · rintro ⟨t, ht⟩
    have hin := t.inRange
    refine ⟨?_, ?_⟩
    · omega
    · omega
  · rintro ⟨hnonneg, hlt⟩
    obtain ⟨micros, hmicros⟩ := Int.eq_ofNat_of_zero_le hnonneg
    refine ⟨⟨micros, ?_⟩, hmicros.symm⟩
    rw [hmicros] at hlt
    exact Int.ofNat_lt.mp hlt

theorem instant_ofUtc (t : DateTime) : (ofUtc t).instant = t.micros := by
  rw [AwareDateTime.instant, ofUtc]
  exact sub_zero _

theorem isDigit_padded (w n : ℕ) : ∀ c ∈ padded w n, c.isDigit = true := by
  induction w generalizing n with
  | zero =>
    intro c hc
    cases hc
  | succ w ih =>
    intro c hc
    rw [padded] at hc
    rcases List.mem_append.mp hc with hc | hc
    · exact ih _ c hc
    · rw [List.mem_singleton.mp hc]
      exact (digitChar_spec _ (Nat.mod_lt n (by decide))).1

theorem z_notMem_padded (w n : ℕ) : 'Z' ∉ padded w n := by
  intro hz
  have hdigit := isDigit_padded w n 'Z' hz
  revert hdigit
  decide

theorem z_notMem_isoChars (t : DateTime) : 'Z' ∉ isoChars t := by
  have hfraction : ∀ us, 'Z' ∉ fractionChars us := by
    intro us
    rw [fractionChars]
    split
    · exact List.not_mem_nil
    · rw [List.mem_cons, not_or]
      exact ⟨by decide, z_notMem_padded 6 us⟩
  simp [isoChars, clockChars, z_notMem_padded, hfraction]

theorem replaceZ_eq_self {cs : List Char} (h : 'Z' ∉ cs) : replaceZ cs = cs := by
  induction cs with
  | nil => rfl
  | cons c cs ih =>
    rw [List.mem_cons, not_or] at h
    rw [replaceZ, List.flatMap_cons, if_neg (Ne.symm h.1)]
    exact congrArg (c :: ·) (ih h.2)

theorem parseIsoDatetime_toIsoUtc (t : DateTime) : parseIsoDatetime (IsoTimestamps.toIsoUtc t) = some (ofUtc t) := by
  have hread := readIso_toIsoUtc t
  have hne : IsoTimestamps.toIsoUtc t ≠ "" := by
    intro hempty
    rw [hempty] at hread
    have hnone : readIso "" = none := by decide +kernel
    rw [hnone] at hread
    cases hread
  rw [parseIsoDatetime, strip_toIsoUtc, if_neg hne]
  rw [IsoTimestamps.toIsoUtc, String.toList_ofList, replaceZ_eq_self (z_notMem_isoChars t)]
  rw [IsoTimestamps.toIsoUtc] at hread
  rw [hread]
  rfl

/-- The texts of two datetimes are ordered as their instants, and each is read back as its instant. -/
theorem toIsoUtc_ordered {a b : AwareDateTime} (ha : a.InUtcYears) (hb : b.InUtcYears) :
    ∃ s t, toIsoUtc a = some s ∧ toIsoUtc b = some t ∧ (s ≤ t ↔ a.instant ≤ b.instant) ∧
      ∃ a', parseIsoDatetime s = some a' ∧ a'.instant = a.instant ∧ a'.offset = 0 := by
  obtain ⟨u, hu⟩ := astimezoneUtc_isSome_iff.mpr ha
  obtain ⟨v, hv⟩ := astimezoneUtc_isSome_iff.mpr hb
  refine ⟨IsoTimestamps.toIsoUtc u, IsoTimestamps.toIsoUtc v, ?_, ?_, ?_, ofUtc u, parseIsoDatetime_toIsoUtc u, ?_, rfl⟩
  · rw [toIsoUtc, hu]
    rfl
  · rw [toIsoUtc, hv]
    rfl
  · rw [toIsoUtc_le_iff, ← astimezoneUtc_eq_some_iff.mp hu, ← astimezoneUtc_eq_some_iff.mp hv]
    exact Int.ofNat_le.symm
  · rw [instant_ofUtc]
    exact astimezoneUtc_eq_some_iff.mp hu

def firstNoon : AwareDateTime where
  clock := 43200000000
  inRange := by decide
  offset := 3600000000
  offset_lt := by decide

def firstMorning : AwareDateTime where
  clock := 21600250000
  inRange := by decide
  offset := -18000000000
  offset_lt := by decide

theorem toIsoUtc_ordered_firstDay :
    ∃ s t, toIsoUtc firstMorning = some s ∧ toIsoUtc firstNoon = some t ∧ (s ≤ t ↔ firstMorning.instant ≤ firstNoon.instant) ∧
      ∃ a', parseIsoDatetime s = some a' ∧ a'.instant = firstMorning.instant ∧ a'.offset = 0 :=
  toIsoUtc_ordered ⟨by decide, by decide⟩ ⟨by decide, by decide⟩

def firstMidnight : AwareDateTime where
  clock := 0
  inRange := by decide
  offset := 3600000000
  offset_lt := by decide

/-- Its instant is in no year that a datetime has. -/
theorem firstMidnight_raises : ¬ ∃ s, toIsoUtc firstMidnight = some s ∧ (s ≤ s ↔ firstMidnight.instant ≤ firstMidnight.instant) := by
  have hraises : toIsoUtc firstMidnight = none := by decide
  rintro ⟨s, hs, -⟩
  rw [hraises] at hs
  cases hs

end OpenMinion.AwareTimestamps
