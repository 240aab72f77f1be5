import Mathlib.Order.Monotone.Basic
import Mathlib.Data.String.Basic
import Mathlib.Data.List.Lex

/-!
# UTC instants and their ISO texts

An aware `datetime` is kept as its UTC instant in microseconds, and `toIsoUtc` is its `isoformat()`, which leaves out a
zero fraction. SQL compares the texts; the last theorem says that this is the order of the instants.
-/
namespace OpenMinion.IsoTimestamps

def isLeap (y : ℕ) : Bool := y % 4 == 0 && (y % 100 != 0 || y % 400 == 0)

def daysBeforeMonth (leap : Bool) (m : ℕ) : ℕ :=
  [0, 0, 31, 59, 90, 120, 151, 181, 212, 243, 273, 304, 334].getD m 365 +
    (if m > 2 && leap then 1 else 0)

def daysInMonth (leap : Bool) (m : ℕ) : ℕ := daysBeforeMonth leap (m + 1) - daysBeforeMonth leap m

def daysBeforeYear (y : ℕ) : ℕ := (y - 1) * 365 + (y - 1) / 4 - (y - 1) / 100 + (y - 1) / 400

/-- `date.toordinal`: 1 for the first of January of year 1. -/
def ymdToOrdinal (y m d : ℕ) : ℕ := daysBeforeYear y + daysBeforeMonth (isLeap y) m + d

def monthDay (leap : Bool) (n : ℕ) : ℕ × ℕ :=
  let m := (n + 50) / 32
  if daysBeforeMonth leap m > n then (m - 1, n - daysBeforeMonth leap (m - 1) + 1)
  else (m, n - daysBeforeMonth leap m + 1)

/-- `date.fromordinal`. -/
def ordinalToYmd (ordinal : ℕ) : ℕ × ℕ × ℕ :=
  let n := ordinal - 1
  let n400 := n / 146097
  let n := n % 146097
  let n100 := n / 36524
  let n := n % 36524
  let n4 := n / 1461
  let n := n % 1461
  let n1 := n / 365
  let n := n % 365
  let year := n400 * 400 + n100 * 100 + n4 * 4 + n1 + 1
  if n1 = 4 ∨ n100 = 4 then (year - 1, 12, 31)
  else (year, monthDay (n1 = 3 && (n4 != 24 || n100 = 3)) n)

/-- A day of the calendar. -/
structure ValidYmd (y m d : ℕ) : Prop where
  year : 1 ≤ y
  month : 1 ≤ m
  month_le : m ≤ 12
  day : 1 ≤ d
  day_le : d ≤ daysInMonth (isLeap y) m

private theorem monthDay_spec : ∀ leap : Bool, ∀ n < 366, (leap = false → n < 365) →
    let md := monthDay leap n
    1 ≤ md.1 ∧ md.1 ≤ 12 ∧ 1 ≤ md.2 ∧ md.2 ≤ daysInMonth leap md.1 ∧
      daysBeforeMonth leap md.1 + md.2 = n + 1 := by
  decide +kernel

private theorem isLeap_of_parts {a b c d : ℕ} (hb : b ≤ 3) (hc : c ≤ 24) (hd : d ≤ 3) :
    isLeap (a * 400 + b * 100 + c * 4 + d + 1) = (d = 3 && (c != 24 || b = 3)) := by
  rw [Bool.eq_iff_iff]
  simp only [isLeap, Bool.and_eq_true, Bool.or_eq_true, beq_iff_eq, bne_iff_ne, decide_eq_true_eq]
  omega

private theorem daysBeforeYear_of_parts {a b c d : ℕ} (hb : b ≤ 3) (hc : c ≤ 24) (hd : d ≤ 3) :
    daysBeforeYear (a * 400 + b * 100 + c * 4 + d + 1) =
      a * 146097 + b * 36524 + c * 1461 + d * 365 := by
  simp only [daysBeforeYear]
  omega

private theorem lastDay_of_parts {a b c : ℕ} (hb : b ≤ 3) (hc : c ≤ 24) (h : c ≠ 24 ∨ b = 3) :
    ValidYmd (a * 400 + b * 100 + c * 4 + 3 + 1) 12 31 ∧
      ymdToOrdinal (a * 400 + b * 100 + c * 4 + 3 + 1) 12 31 =
        a * 146097 + b * 36524 + c * 1461 + 1460 + 1 := by
  have hleap : isLeap (a * 400 + b * 100 + c * 4 + 3 + 1) = true := by
    rw [isLeap_of_parts hb hc le_rfl]
    simpa using h
  refine ⟨⟨by omega, by decide, by decide, by decide, ?_⟩, ?_⟩
  · rw [hleap]
    decide
  · have hdec : daysBeforeMonth true 12 = 335 := by decide
    rw [ymdToOrdinal, hleap, daysBeforeYear_of_parts hb hc le_rfl, hdec]

/-- Every ordinal from 1 on is the ordinal of the valid date that `fromordinal` gives. -/
theorem ordinalToYmd_spec {n : ℕ} (hn : 1 ≤ n) :
    ValidYmd (ordinalToYmd n).1 (ordinalToYmd n).2.1 (ordinalToYmd n).2.2 ∧
      ymdToOrdinal (ordinalToYmd n).1 (ordinalToYmd n).2.1 (ordinalToYmd n).2.2 = n := by
  obtain ⟨n, rfl⟩ : ∃ k, n = k + 1 := ⟨n - 1, by omega⟩
  simp only [ordinalToYmd, Nat.add_sub_cancel]
  generalize ha : n / 146097 = a
  generalize hr : n % 146097 = r
  generalize hb : r / 36524 = b
  generalize hr1 : r % 36524 = r1
  generalize hc : r1 / 1461 = c
  generalize hr2 : r1 % 1461 = r2
  generalize hd : r2 / 365 = d
  generalize hr3 : r2 % 365 = r3
  have hc24 : c ≤ 24 := by omega
  split
  case isTrue h =>
    dsimp only
    rcases h with h | h
    · have hy : a * 400 + b * 100 + c * 4 + d = a * 400 + b * 100 + c * 4 + 3 + 1 := by omega
      have hn : n = a * 146097 + b * 36524 + c * 1461 + 1460 := by omega
      rw [hy, hn]
      exact lastDay_of_parts (by omega) (by omega) (by omega)
    · have hy : a * 400 + b * 100 + c * 4 + d = a * 400 + 3 * 100 + 24 * 4 + 3 + 1 := by omega
      have hn : n = a * 146097 + 3 * 36524 + 24 * 1461 + 1460 := by omega
      rw [hy, hn]
      exact lastDay_of_parts (a := a) (b := 3) (c := 24) (by decide) (by decide) (by decide)
  case isFalse h =>
    have hb3 : b ≤ 3 := by omega
    have hd3 : d ≤ 3 := by omega
    rw [← isLeap_of_parts (a := a) hb3 hc24 hd3]
    have h := monthDay_spec (isLeap (a * 400 + b * 100 + c * 4 + d + 1)) r3 (by omega) (by omega)
    obtain ⟨h1, h2, h3, h4, h5⟩ := h
    refine ⟨⟨by omega, h1, h2, h3, h4⟩, ?_⟩
    rw [ymdToOrdinal, daysBeforeYear_of_parts hb3 hc24 hd3, Nat.add_assoc, h5]
    omega

private theorem daysBeforeYear_succ {y : ℕ} (hy : 1 ≤ y) :
    daysBeforeYear (y + 1) = daysBeforeYear y + 365 + (if isLeap y then 1 else 0) := by
  obtain ⟨k, rfl⟩ : ∃ k, y = k + 1 := ⟨y - 1, by omega⟩
  have h4 : (k + 1) / 4 = k / 4 + (if (k + 1) % 4 = 0 then 1 else 0) := by split <;> omega
  have h100 : (k + 1) / 100 = k / 100 + (if (k + 1) % 100 = 0 then 1 else 0) := by split <;> omega
  have h400 : (k + 1) / 400 = k / 400 + (if (k + 1) % 400 = 0 then 1 else 0) := by split <;> omega
  simp only [daysBeforeYear, Nat.add_sub_cancel, h4, h100, h400, isLeap, Bool.and_eq_true,
    Bool.or_eq_true, beq_iff_eq, bne_iff_ne]
  have hle : k / 100 ≤ k / 4 := Nat.div_le_div_left (by decide) (by decide)
  clear h4 h100 h400
  have h1 : (k + 1) % 100 = 0 → (k + 1) % 4 = 0 := by omega
  have h2 : (k + 1) % 400 = 0 → (k + 1) % 100 = 0 := by omega
  generalize k / 4 = q4, k / 100 = q100, k / 400 = q400 at *
  split_ifs <;> omega

private theorem daysBeforeYear_mono {y y' : ℕ} (hy : 1 ≤ y) (h : y ≤ y') :
    daysBeforeYear y ≤ daysBeforeYear y' := by
  induction y', h using Nat.le_induction with
  | base => exact le_rfl
  | succ k hk ih =>
    rw [daysBeforeYear_succ (hy.trans hk)]
    omega

private theorem daysBeforeMonth_mono : ∀ leap : Bool, ∀ m < 13, ∀ m' < 14, m < m' →
    daysBeforeMonth leap (m + 1) ≤ daysBeforeMonth leap m' := by
  decide +kernel

private theorem daysBeforeMonth_le_succ : ∀ leap : Bool, ∀ m < 13,
    daysBeforeMonth leap m ≤ daysBeforeMonth leap (m + 1) := by
  decide +kernel

private theorem daysInMonth_lt : ∀ leap : Bool, ∀ m < 13, daysInMonth leap m < 100 := by
  decide +kernel

theorem ymdToOrdinal_lt {y m d y' m' d' : ℕ} (h : ValidYmd y m d) (h' : ValidYmd y' m' d')
    (hlt : y < y' ∨ y = y' ∧ (m < m' ∨ m = m' ∧ d < d')) :
    ymdToOrdinal y m d < ymdToOrdinal y' m' d' := by
  have hm : m < 13 := Nat.lt_succ_of_le h.month_le
  have hday : daysBeforeMonth (isLeap y) m + d ≤ daysBeforeMonth (isLeap y) (m + 1) := by
    have hle := daysBeforeMonth_le_succ (isLeap y) m hm
    have hd : d ≤ daysBeforeMonth (isLeap y) (m + 1) - daysBeforeMonth (isLeap y) m := h.day_le
    omega
  have hday' := h'.day
  simp only [ymdToOrdinal]
  rcases hlt with hy | ⟨rfl, hm' | ⟨rfl, hd'⟩⟩
  · have hend : daysBeforeMonth (isLeap y) 13 = 365 + (if isLeap y then 1 else 0) := by
      cases isLeap y <;> rfl
    have hmonth := daysBeforeMonth_mono (isLeap y) m hm 13 (by decide) hm
    have hnext := daysBeforeYear_mono (Nat.le_add_left 1 y) hy
    rw [daysBeforeYear_succ h.year] at hnext
    omega
  · have := daysBeforeMonth_mono (isLeap y) m hm m' (by have := h'.month_le; omega) hm'
    omega
  · omega

/-- `fromordinal` is strictly increasing for the lexicographic order of dates. -/
theorem ordinalToYmd_lt {n n' : ℕ} (hn : 1 ≤ n) (h : n < n') :
    let a := ordinalToYmd n
    let b := ordinalToYmd n'
    a.1 < b.1 ∨ a.1 = b.1 ∧ (a.2.1 < b.2.1 ∨ a.2.1 = b.2.1 ∧ a.2.2 < b.2.2) := by
  obtain ⟨hv, ho⟩ := ordinalToYmd_spec hn
  obtain ⟨hv', ho'⟩ := ordinalToYmd_spec (hn.trans h.le)
  intro a b
  by_contra hnot
  have hge : (b.1 < a.1 ∨ b.1 = a.1 ∧ (b.2.1 < a.2.1 ∨ b.2.1 = a.2.1 ∧ b.2.2 < a.2.2)) ∨
      b.1 = a.1 ∧ b.2.1 = a.2.1 ∧ b.2.2 = a.2.2 := by omega
  rcases hge with hlt | ⟨h1, h2, h3⟩
  · have hgt := ymdToOrdinal_lt hv' hv hlt
    omega
  · have heq : ymdToOrdinal b.1 b.2.1 b.2.2 = ymdToOrdinal a.1 a.2.1 a.2.2 := by rw [h1, h2, h3]
    have hb : ymdToOrdinal b.1 b.2.1 b.2.2 = n' := ho'
    have ha : ymdToOrdinal a.1 a.2.1 a.2.2 = n := ho
    omega

def microsPerDay : ℕ := 86400000000

/-- The first instant after year 9999; `date.max.toordinal()` is 3652059. -/
def endOfTime : ℕ := 3652059 * microsPerDay

theorem zero_lt_endOfTime : 0 < endOfTime := by decide

/-- Ten o'clock on the 18th of July 2026. -/
theorem tenOClock_lt_endOfTime : 63919965600000000 < endOfTime := by decide

theorem afterTen_lt_endOfTime (seconds : Fin 3600) : 63919965600000000 + seconds * 1000000 < endOfTime := by
  have := seconds.isLt
  simp only [endOfTime, microsPerDay]
  omega

-- The numerals of `Fin 3600` and `Fin 60`, the seconds and the minutes of an hour.
instance neZero_seconds : @NeZero ℕ Zero.ofOfNat0 3600 := ⟨by decide⟩

instance neZero_minutes : @NeZero ℕ Zero.ofOfNat0 60 := ⟨by decide⟩

/-- An aware `datetime`, as its UTC instant in microseconds since the first of January of year 1. -/
@[ext] structure DateTime where
  micros : ℕ
  inRange : micros < endOfTime
  deriving DecidableEq

namespace DateTime

instance : LinearOrder DateTime := LinearOrder.lift' micros fun _ _ h => DateTime.ext h

theorem lt_iff {a b : DateTime} : a < b ↔ a.micros < b.micros := Iff.rfl

/-- `dt + timedelta(microseconds=m)`; the sum raises `OverflowError` outside years 1 to 9999. -/
def addMicros (t : DateTime) (m : ℤ) : Option DateTime :=
  match m with
  | .ofNat d => if h : d + t.micros < endOfTime then some ⟨d + t.micros, h⟩ else none
  | .negSucc d =>
    if d + 1 ≤ t.micros then some ⟨t.micros - (d + 1), (Nat.sub_le _ _).trans_lt t.inRange⟩ else none

/-- `dt + timedelta(seconds=s)`. -/
def addSeconds (t : DateTime) (s : ℤ) : Option DateTime := t.addMicros (s * 1000000)

def ordinal (t : DateTime) : ℕ := t.micros / microsPerDay + 1

def microOfDay (t : DateTime) : ℕ := t.micros % microsPerDay

end DateTime

theorem addMicros_eq_some {t t' : DateTime} {d : ℕ} : t.addMicros d = some t' ↔ t'.micros = t.micros + d := by
  have hin := t'.inRange
  change (if h : d + t.micros < endOfTime then some (⟨d + t.micros, h⟩ : DateTime) else none) = some t' ↔ _
  split
  · next h =>
    rw [Option.some.injEq, DateTime.ext_iff]
    dsimp only
    omega
  · next h =>
    constructor
    · exact fun heq => nomatch heq
    · intro heq
      omega

theorem addMicros_eq_some_iff {t t' : DateTime} {m : ℤ} : t.addMicros m = some t' ↔ (t'.micros : ℤ) = t.micros + m := by
  cases m with
  | ofNat d =>
    rw [Int.ofNat_eq_natCast, addMicros_eq_some]
    omega
  | negSucc d =>
    have hin := t.inRange
    change (if d + 1 ≤ t.micros then some (⟨t.micros - (d + 1), (Nat.sub_le _ _).trans_lt hin⟩ : DateTime) else none) = some t' ↔ _
    rw [Int.negSucc_eq]
    split
    · rw [Option.some.injEq, DateTime.ext_iff]
      dsimp only
      omega
    · next h =>
      refine iff_of_false (fun heq => nomatch heq) ?_
      omega

def padded : ℕ → ℕ → List Char
  | 0, _ => []
  | w + 1, n => padded w (n / 10) ++ [Nat.digitChar (n % 10)]

def fractionChars (us : ℕ) : List Char := if us = 0 then [] else '.' :: padded 6 us

def clockChars (us : ℕ) : List Char :=
  let second := us / 1000000
  padded 2 (second / 3600) ++ ':' :: (padded 2 (second / 60 % 60) ++ ':' ::
    (padded 2 (second % 60) ++ (fractionChars (us % 1000000) ++ "+00:00".toList)))

def isoChars (t : DateTime) : List Char :=
  let ymd := ordinalToYmd t.ordinal
  padded 4 ymd.1 ++ '-' :: (padded 2 ymd.2.1 ++ '-' :: (padded 2 ymd.2.2 ++ 'T' ::
    clockChars t.microOfDay))

/-- `value.astimezone(timezone.utc).isoformat()`. -/
def toIsoUtc (t : DateTime) : String := String.ofList (isoChars t)

private theorem length_padded (w n : ℕ) : (padded w n).length = w := by
  induction w generalizing n with
  | zero => rfl
  | succ w ih => simp [padded, ih]

private theorem append_lt_of_lt {l l' : List Char} (hlen : l.length = l'.length) (h : l < l')
    (t t' : List Char) : l ++ t < l' ++ t' := by
  induction l generalizing l' with
  | nil => cases l' with
    | nil => exact absurd h (lt_irrefl _)
    | cons b l' => simp at hlen
  | cons a l ih => cases l' with
    | nil => simp at hlen
    | cons b l' =>
      rw [List.cons_lt_cons_iff] at h
      simp only [List.cons_append, List.cons_lt_cons_iff]
      rcases h with h | ⟨rfl, h⟩
      · exact .inl h
      · exact .inr ⟨rfl, ih (by simpa using hlen) h⟩

private theorem append_lt_append (l : List Char) {t t' : List Char} (h : t < t') :
    l ++ t < l ++ t' := by
  induction l with
  | nil => exact h
  | cons a l ih => simpa [List.cons_lt_cons_iff] using ih

private theorem digitChar_lt : ∀ a < 10, ∀ b < 10, a < b → Nat.digitChar a < Nat.digitChar b := by
  decide

private theorem padded_lt {w n n' : ℕ} (hn : n' < 10 ^ w) (h : n < n') :
    padded w n < padded w n' := by
  induction w generalizing n n' with
  | zero => simp at hn; omega
  | succ w ih =>
    simp only [padded]
    by_cases hdiv : n / 10 < n' / 10
    · apply append_lt_of_lt (by simp [length_padded])
      exact ih (by rw [pow_succ] at hn; omega) hdiv
    · have heq : n / 10 = n' / 10 := by omega
      rw [heq]
      apply append_lt_append
      rw [List.cons_lt_cons_iff]
      exact .inl (digitChar_lt _ (by omega) _ (by omega) (by omega))

private theorem field_lt {w n n' : ℕ} (hn : n' < 10 ^ w) (h : n < n') (t t' : List Char) :
    padded w n ++ t < padded w n' ++ t' :=
  append_lt_of_lt (by simp [length_padded]) (padded_lt hn h) t t'

private theorem field_then_lt {w n n' : ℕ} {c : Char} {t t' : List Char} (hn : n' < 10 ^ w)
    (h : n < n' ∨ n = n' ∧ t < t') : padded w n ++ c :: t < padded w n' ++ c :: t' := by
  rcases h with h | ⟨rfl, h⟩
  · exact field_lt hn h _ _
  · apply append_lt_append
    rw [List.cons_lt_cons_iff]
    exact .inr ⟨rfl, h⟩

private theorem fraction_lt {us us' : ℕ} (hus : us' < 10 ^ 6) (h : us < us') :
    fractionChars us ++ "+00:00".toList < fractionChars us' ++ "+00:00".toList := by
  have hpos : us' ≠ 0 := by omega
  simp only [fractionChars, hpos, if_false]
  split
  · -- the offset's plus sign comes before the point of a fraction
    rw [List.nil_append]
    exact List.cons_lt_cons_iff.mpr (.inl (by decide))
  · rw [List.cons_append, List.cons_append, List.cons_lt_cons_iff]
    exact .inr ⟨rfl, field_lt hus h _ _⟩

private theorem clockChars_lt {us us' : ℕ} (hus : us' < microsPerDay) (h : us < us') :
    clockChars us < clockChars us' := by
  simp only [microsPerDay] at hus
  simp only [clockChars]
  apply field_then_lt (by omega)
  by_cases hh : us / 1000000 / 3600 < us' / 1000000 / 3600
  · exact .inl hh
  refine .inr ⟨by omega, ?_⟩
  apply field_then_lt (by omega)
  by_cases hm : us / 1000000 / 60 % 60 < us' / 1000000 / 60 % 60
  · exact .inl hm
  refine .inr ⟨by omega, ?_⟩
  by_cases hs : us / 1000000 % 60 < us' / 1000000 % 60
  · exact field_lt (by omega) hs _ _
  have heq : us / 1000000 % 60 = us' / 1000000 % 60 := by omega
  rw [heq]
  exact append_lt_append _ (fraction_lt (by omega) (by omega))

private theorem year_lt {n : ℕ} (hn : 1 ≤ n) (h : n ≤ 3652059) : (ordinalToYmd n).1 < 10 ^ 4 := by
  by_contra hge
  obtain ⟨hv, ho⟩ := ordinalToYmd_spec hn
  have hy : daysBeforeYear 10000 ≤ daysBeforeYear (ordinalToYmd n).1 :=
    daysBeforeYear_mono (by decide) (by omega)
  have h10000 : daysBeforeYear 10000 = 3652059 := by decide +kernel
  have hd := hv.day
  simp only [ymdToOrdinal] at ho
  omega

theorem isoDate_lt (t : DateTime) : (ordinalToYmd t.ordinal).1 < 10 ^ 4 ∧ (ordinalToYmd t.ordinal).2.1 < 10 ^ 2 ∧
    (ordinalToYmd t.ordinal).2.2 < 10 ^ 2 := by
  have hin := t.inRange
  have hordinal : t.ordinal ≤ 3652059 := by
    simp only [endOfTime, microsPerDay] at hin
    simp only [DateTime.ordinal, microsPerDay]
    omega
  have hfirst : 1 ≤ t.ordinal := Nat.le_add_left _ _
  obtain ⟨hv, -⟩ := ordinalToYmd_spec hfirst
  have hmonth := hv.month_le
  have hday := daysInMonth_lt (isLeap (ordinalToYmd t.ordinal).1) _ (Nat.lt_succ_of_le hmonth)
  exact ⟨year_lt hfirst hordinal, by omega, hv.day_le.trans_lt hday⟩

theorem toIsoUtc_strictMono : StrictMono toIsoUtc := by
  intro a b h
  rw [DateTime.lt_iff] at h
  have hb1 : 1 ≤ b.ordinal := Nat.le_add_left _ _
  obtain ⟨hyear, hmonth, hday⟩ := isoDate_lt b
  rw [String.lt_iff_toList_lt]
  simp only [toIsoUtc, String.toList_ofList, isoChars]
  by_cases ho : a.ordinal < b.ordinal
  · -- the dates differ
    have hlex := ordinalToYmd_lt (Nat.le_add_left 1 _) ho
    apply field_then_lt hyear
    refine hlex.imp_right fun ⟨hy, hrest⟩ => ⟨hy, ?_⟩
    apply field_then_lt hmonth
    refine hrest.imp_right fun ⟨hm, hd⟩ => ⟨hm, ?_⟩
    exact field_then_lt hday (.inl hd)
  · -- the same day: the clocks differ
    have heq : a.ordinal = b.ordinal := by
      simp only [DateTime.ordinal, microsPerDay] at ho ⊢
      omega
    have hclock : a.microOfDay < b.microOfDay := by
      simp only [DateTime.ordinal, DateTime.microOfDay, microsPerDay] at heq ⊢
      omega
    rw [heq]
    have hlt := clockChars_lt (Nat.mod_lt _ (by decide)) hclock
    exact field_then_lt hyear (.inr ⟨rfl, field_then_lt hmonth
      (.inr ⟨rfl, field_then_lt hday (.inr ⟨rfl, hlt⟩)⟩)⟩)

theorem toIsoUtc_lt_iff {a b : DateTime} : toIsoUtc a < toIsoUtc b ↔ a < b :=
  toIsoUtc_strictMono.lt_iff_lt

theorem toIsoUtc_le_iff {a b : DateTime} : toIsoUtc a ≤ toIsoUtc b ↔ a ≤ b :=
  toIsoUtc_strictMono.le_iff_le

theorem toIsoUtc_injective : Function.Injective toIsoUtc := toIsoUtc_strictMono.injective

end OpenMinion.IsoTimestamps
