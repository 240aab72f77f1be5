import Mathlib.Algebra.Order.Field.Rat
import Mathlib.Data.List.TakeWhile
import Mathlib.Tactic.FieldSimp
import Mathlib.Tactic.Ring

/-!
# Texts of floating-point numbers

A finite number is given by its shortest decimal: digits without a trailing zero, times a power
of ten. `repr` writes it in positional or in scientific form; a text stands for one number.
-/
namespace OpenMinion.DecimalTexts

structure Decimal where
  negative : Bool
  digits : ℕ
  exponent : ℤ
  normal : digits % 10 ≠ 0 ∨ digits = 0 ∧ exponent = 0
  deriving DecidableEq

inductive Number where
  | nan
  | inf (negative : Bool)
  | finite (d : Decimal)
  deriving DecidableEq

def exponentText (e : ℤ) : List Char :=
  'e' :: (if e < 0 then '-' else '+') :: (if e.natAbs < 10 then ['0'] else []) ++ Nat.toDigits 10 e.natAbs

/-- The digits with the point behind the first `point` of them. -/
def positional (digits : List Char) (point : ℤ) : List Char :=
  if point ≤ 0 then '0' :: '.' :: (List.replicate (-point).toNat '0' ++ digits)
  else if digits.length ≤ point then digits ++ List.replicate (point - digits.length).toNat '0' ++ ['.', '0']
  else digits.take point.toNat ++ '.' :: digits.drop point.toNat

def scientific (digits : List Char) (point : ℤ) : List Char :=
  digits.take 1 ++ (if digits.length ≤ 1 then [] else '.' :: digits.drop 1) ++ exponentText (point - 1)

def magnitude (digits : ℕ) (exponent : ℤ) : List Char :=
  let text := Nat.toDigits 10 digits
  let point := text.length + exponent
  if point ≤ -4 ∨ 16 < point then scientific text point else positional text point

/-- `float.__repr__`, with the names that `json.dumps` writes for what is not finite. -/
def repr : Number → List Char
  | .nan => "NaN".toList
  | .inf negative => (if negative then ['-'] else []) ++ "Infinity".toList
  | .finite d => (if d.negative then ['-'] else []) ++ magnitude d.digits d.exponent

def Decimal.value (d : Decimal) : ℚ := (if d.negative then -1 else 1) * (d.digits * 10 ^ d.exponent)

def readMantissa (text : List Char) : ℚ :=
  Nat.ofDigitChars 10 (text.filter (· ≠ '.')) 0 * 10 ^ (-((text.dropWhile (· ≠ '.')).length - 1 : ℕ) : ℤ)

def readExponent : List Char → ℤ
  | _ :: sign :: digits => (if sign = '-' then -1 else 1) * Nat.ofDigitChars 10 digits 0
  | _ => 0

def read (text : List Char) : ℚ :=
  readMantissa (text.takeWhile (· ≠ 'e')) * 10 ^ readExponent (text.dropWhile (· ≠ 'e'))

section Digits

variable {digits : List Char}

theorem not_point_of_isDigit {c : Char} (h : c.isDigit = true) : c ≠ '.' := by
  rintro rfl
  exact absurd h (by decide)

theorem not_exponent_of_isDigit {c : Char} (h : c.isDigit = true) : c ≠ 'e' := by
  rintro rfl
  exact absurd h (by decide)

theorem isDigit_toDigits (n : ℕ) : ∀ c ∈ Nat.toDigits 10 n, c.isDigit = true :=
  fun _ hc => Nat.isDigit_of_mem_toDigits (by decide) (by decide) hc

theorem isDigit_replicate_zero (n : ℕ) : ∀ c ∈ List.replicate n '0', c.isDigit = true := by
  intro c hc
  rw [List.eq_of_mem_replicate hc]
  decide

theorem filter_point_digits (h : ∀ c ∈ digits, c.isDigit = true) : digits.filter (· ≠ '.') = digits := by
  rw [List.filter_eq_self]
  intro c hc
  exact decide_eq_true (not_point_of_isDigit (h c hc))

theorem dropWhile_point_digits (h : ∀ c ∈ digits, c.isDigit = true) (rest : List Char) :
    (digits ++ rest).dropWhile (· ≠ '.') = rest.dropWhile (· ≠ '.') := by
  rw [List.dropWhile_append_of_pos]
  intro c hc
  exact decide_eq_true (not_point_of_isDigit (h c hc))

theorem readMantissa_point {fraction : List Char} (h : ∀ c ∈ digits, c.isDigit = true) (hf : ∀ c ∈ fraction, c.isDigit = true) :
    readMantissa (digits ++ '.' :: fraction) =
      Nat.ofDigitChars 10 (digits ++ fraction) 0 * 10 ^ (-(fraction.length : ℤ)) := by
  rw [readMantissa, List.filter_append, filter_point_digits h, List.filter_cons_of_neg (by simp), filter_point_digits hf,
    dropWhile_point_digits h]
  simp

theorem readMantissa_digits (h : ∀ c ∈ digits, c.isDigit = true) : readMantissa digits = Nat.ofDigitChars 10 digits 0 := by
  have hdrop := dropWhile_point_digits h []
  rw [List.append_nil] at hdrop
  rw [readMantissa, filter_point_digits h, hdrop]
  simp

theorem read_of_not_exponent {text : List Char} (h : ∀ c ∈ text, c ≠ 'e') : read text = readMantissa text := by
  have hall : ∀ c ∈ text, decide (c ≠ 'e') = true := fun c hc => decide_eq_true (h c hc)
  rw [read, List.takeWhile_eq_self_iff.mpr hall, List.dropWhile_eq_nil_iff.mpr hall]
  simp [readExponent]

theorem readExponent_exponentText (e : ℤ) : readExponent (exponentText e) = e := by
  rw [exponentText]
  have hdigits : Nat.ofDigitChars 10 ((if e.natAbs < 10 then ['0'] else []) ++ Nat.toDigits 10 e.natAbs) 0 = e.natAbs := by
    split
    · rw [Nat.ofDigitChars_append]
      exact Nat.ofDigitChars_ten_toDigits
    · exact Nat.ofDigitChars_ten_toDigits
  rw [readExponent.eq_def]
  by_cases hneg : e < 0
  · simp only [hneg, if_true, List.cons_append, hdigits]
    omega
  · simp only [hneg, if_false, List.cons_append, hdigits]
    simp
    omega

theorem read_exponentText {text : List Char} (h : ∀ c ∈ text, c ≠ 'e') (e : ℤ) :
    read (text ++ exponentText e) = readMantissa text * 10 ^ e := by
  have hall : ∀ c ∈ text, decide (c ≠ 'e') = true := fun c hc => decide_eq_true (h c hc)
  have hstop : (exponentText e).takeWhile (· ≠ 'e') = [] ∧ (exponentText e).dropWhile (· ≠ 'e') = exponentText e := by
    simp [exponentText]
  rw [read, List.takeWhile_append_of_pos hall, List.dropWhile_append_of_pos hall, hstop.1, hstop.2, List.append_nil,
    readExponent_exponentText]

theorem read_positional (h : ∀ c ∈ digits, c.isDigit = true) (point : ℤ) :
    read (positional digits point) = Nat.ofDigitChars 10 digits 0 * 10 ^ (point - digits.length) := by
  rw [positional]
  split
  · next hsmall =>
    have hzeros := isDigit_replicate_zero (-point).toNat
    have hfraction : ∀ c ∈ List.replicate (-point).toNat '0' ++ digits, c.isDigit = true := by
      intro c hc
      exact (List.mem_append.mp hc).elim (hzeros c) (h c)
    have hzero : ∀ c ∈ ['0'], c.isDigit = true := by simp
    have hread := readMantissa_point hzero hfraction
    rw [List.singleton_append] at hread
    rw [read_of_not_exponent, hread]
    · have hnumber : Nat.ofDigitChars 10 (['0'] ++ (List.replicate (-point).toNat '0' ++ digits)) 0 = Nat.ofDigitChars 10 digits 0 := by
        rw [Nat.ofDigitChars_append, Nat.ofDigitChars_append, Nat.ofDigitChars_replicate_zero]
        rfl
      have hlength : (-((List.replicate (-point).toNat '0' ++ digits).length : ℤ)) = point - digits.length := by
        rw [List.length_append, List.length_replicate]
        omega
      rw [hnumber, hlength]
    · intro c hc
      rcases List.mem_cons.mp hc with rfl | hc
      · decide
      · rcases List.mem_cons.mp hc with rfl | hc
        · decide
        · exact not_exponent_of_isDigit (hfraction c hc)
  · next hlarge =>
    split
    · next hwhole =>
      have hinteger : ∀ c ∈ digits ++ List.replicate (point - digits.length).toNat '0', c.isDigit = true := by
        intro c hc
        exact (List.mem_append.mp hc).elim (h c) (isDigit_replicate_zero _ c)
      have hzero : ∀ c ∈ ['0'], c.isDigit = true := by simp
      rw [read_of_not_exponent, readMantissa_point hinteger hzero]
      · have hnumber : Nat.ofDigitChars 10 (digits ++ List.replicate (point - digits.length).toNat '0' ++ ['0']) 0 =
            10 * (10 ^ (point - digits.length).toNat * Nat.ofDigitChars 10 digits 0) := by
          rw [Nat.ofDigitChars_append, Nat.ofDigitChars_append, Nat.ofDigitChars_replicate_zero, Nat.ofDigitChars_cons]
          simp
        have hpower : (10 : ℚ) ^ (point - digits.length) = 10 ^ (point - digits.length).toNat := by
          rw [← zpow_natCast, Int.toNat_of_nonneg (by omega)]
        rw [hnumber, hpower]
        push_cast
        rw [List.length_singleton]
        norm_num
        ring
      · intro c hc
        rcases List.mem_append.mp hc with hc | hc
        · exact not_exponent_of_isDigit (hinteger c hc)
        · rcases List.mem_pair.mp hc with rfl | rfl
          · decide
          · decide
    · next hinside =>
      have hbefore : ∀ c ∈ digits.take point.toNat, c.isDigit = true := fun c hc => h c (List.mem_of_mem_take hc)
      have hbehind : ∀ c ∈ digits.drop point.toNat, c.isDigit = true := fun c hc => h c (List.mem_of_mem_drop hc)
      rw [read_of_not_exponent, readMantissa_point hbefore hbehind, List.take_append_drop]
      · have hlength : (-((digits.drop point.toNat).length : ℤ)) = point - digits.length := by
          rw [List.length_drop]
          omega
        rw [hlength]
      · intro c hc
        rcases List.mem_append.mp hc with hc | hc
        · exact not_exponent_of_isDigit (hbefore c hc)
        · rcases List.mem_cons.mp hc with rfl | hc
          · decide
          · exact not_exponent_of_isDigit (hbehind c hc)

theorem read_scientific (h : ∀ c ∈ digits, c.isDigit = true) (hne : digits ≠ []) (point : ℤ) :
    read (scientific digits point) = Nat.ofDigitChars 10 digits 0 * 10 ^ (point - digits.length) := by
  have hfirst : ∀ c ∈ digits.take 1, c.isDigit = true := fun c hc => h c (List.mem_of_mem_take hc)
  have hbehind : ∀ c ∈ digits.drop 1, c.isDigit = true := fun c hc => h c (List.mem_of_mem_drop hc)
  have hpositive := List.length_pos_iff.mpr hne
  rw [scientific]
  split
  · next hone =>
    have htake : digits.take 1 = digits := List.take_of_length_le hone
    rw [List.append_nil, htake, read_exponentText fun c hc => not_exponent_of_isDigit (h c hc), readMantissa_digits h]
    have hlength : digits.length = 1 := by omega
    rw [hlength]
    norm_num
  · next hmany =>
    rw [read_exponentText, readMantissa_point hfirst hbehind, List.take_append_drop, mul_assoc, ← zpow_add₀ (by norm_num)]
    · have hlength : -((digits.drop 1).length : ℤ) + (point - 1) = point - digits.length := by
        rw [List.length_drop]
        omega
      rw [hlength]
    · intro c hc
      rcases List.mem_append.mp hc with hc | hc
      · exact not_exponent_of_isDigit (hfirst c hc)
      · rcases List.mem_cons.mp hc with rfl | hc
        · decide
        · exact not_exponent_of_isDigit (hbehind c hc)

end Digits

theorem read_magnitude (digits : ℕ) (exponent : ℤ) : read (magnitude digits exponent) = digits * 10 ^ exponent := by
  have hdigits := isDigit_toDigits digits
  have hvalue : (Nat.ofDigitChars 10 (Nat.toDigits 10 digits) 0 : ℚ) *
      10 ^ ((Nat.toDigits 10 digits).length + exponent - (Nat.toDigits 10 digits).length) = digits * 10 ^ exponent := by
    rw [Nat.ofDigitChars_ten_toDigits, add_sub_cancel_left]
  rw [magnitude]
  split
  · rw [read_scientific hdigits Nat.toDigits_ne_nil, hvalue]
  · rw [read_positional hdigits, hvalue]

theorem eq_of_value_eq_of_le {m n : ℕ} {e f : ℤ} (hm : m % 10 ≠ 0 ∨ m = 0 ∧ e = 0) (hn : n % 10 ≠ 0 ∨ n = 0 ∧ f = 0)
    (hle : e ≤ f) (h : (m : ℚ) * 10 ^ e = n * 10 ^ f) : m = n ∧ e = f := by
  obtain ⟨k, rfl⟩ := Int.le.dest hle
  have hnat : m = n * 10 ^ k := by
    rw [zpow_add₀ (by norm_num), zpow_natCast, mul_comm ((10 : ℚ) ^ e), ← mul_assoc] at h
    have hcancel := mul_right_cancel₀ (zpow_ne_zero e (by norm_num)) h
    exact_mod_cast hcancel
  cases k with
  | zero => exact ⟨by simpa using hnat, by simp⟩
  | succ k =>
    have hmod : m % 10 = 0 := by
      rw [hnat, pow_succ, ← mul_assoc, Nat.mul_mod_left]
    obtain ⟨hzero, he⟩ := hm.resolve_left (fun hne => hne hmod)
    have hnzero : n = 0 := by
      rw [hzero] at hnat
      exact (Nat.mul_eq_zero.mp hnat.symm).resolve_right (pow_ne_zero _ (by decide))
    obtain ⟨-, hf⟩ := hn.resolve_left (fun hne => hne (by rw [hnzero]))
    omega

theorem eq_of_value_eq {m n : ℕ} {e f : ℤ} (hm : m % 10 ≠ 0 ∨ m = 0 ∧ e = 0) (hn : n % 10 ≠ 0 ∨ n = 0 ∧ f = 0)
    (h : (m : ℚ) * 10 ^ e = n * 10 ^ f) : m = n ∧ e = f := by
  rcases le_total e f with hle | hle
  · exact eq_of_value_eq_of_le hm hn hle h
  · obtain ⟨hdigits, hexponent⟩ := eq_of_value_eq_of_le hn hm hle h.symm
    exact ⟨hdigits.symm, hexponent.symm⟩

theorem head_magnitude (digits : ℕ) (exponent : ℤ) :
    ∃ c rest, magnitude digits exponent = c :: rest ∧ c.isDigit = true := by
  have hdigits := isDigit_toDigits digits
  obtain ⟨c, cs, htext⟩ := List.exists_cons_of_ne_nil (@Nat.toDigits_ne_nil digits 10)
  have hc : c.isDigit = true := hdigits c (by rw [htext]; exact List.mem_cons_self)
  rw [magnitude, htext]
  split
  · exact ⟨c, _, rfl, hc⟩
  · rw [positional]
    split
    · exact ⟨'0', _, rfl, by decide⟩
    · next hpoint =>
      split
      · exact ⟨c, _, rfl, hc⟩
      · obtain ⟨k, hk⟩ := Nat.exists_eq_succ_of_ne_zero (n := (((c :: cs).length : ℤ) + exponent).toNat) (by omega)
        rw [hk]
        exact ⟨c, _, rfl, hc⟩

theorem magnitude_injective {d d' : Decimal} (h : magnitude d.digits d.exponent = magnitude d'.digits d'.exponent) :
    d.digits = d'.digits ∧ d.exponent = d'.exponent := by
  have hread := congrArg read h
  rw [read_magnitude, read_magnitude] at hread
  exact eq_of_value_eq d.normal d'.normal hread

theorem repr_injective : Function.Injective repr := by
  have hsign : ∀ (d : Decimal) (rest : List Char), repr (.finite d) ≠ 'N' :: rest ∧ repr (.finite d) ≠ 'I' :: rest ∧
      repr (.finite d) ≠ '-' :: 'I' :: rest := by
    intro d rest
    obtain ⟨c, cs, hmagnitude, hc⟩ := head_magnitude d.digits d.exponent
    have hN : c ≠ 'N' := by rintro rfl; exact absurd hc (by decide)
    have hI : c ≠ 'I' := by rintro rfl; exact absurd hc (by decide)
    have hminus : c ≠ '-' := by rintro rfl; exact absurd hc (by decide)
    rw [repr, hmagnitude]
    split
    · simp [hI]
    · simp [hN, hI, hminus]
  intro x y h
  cases x with
  | nan =>
    cases y with
    | nan => rfl
    | inf negative => cases negative <;> simp [repr] at h
    | finite d => exact absurd h.symm (hsign d _).1
  | inf negative =>
    cases y with
    | nan => cases negative <;> simp [repr] at h
    | inf other => cases negative <;> cases other <;> simp [repr] at h ⊢
    | finite d =>
      cases negative with
      | false => exact absurd h.symm (hsign d _).2.1
      | true => exact absurd h.symm (hsign d _).2.2
  | finite d =>
    cases y with
    | nan => exact absurd h (hsign d _).1
    | inf negative =>
      cases negative with
      | false => exact absurd h (hsign d _).2.1
      | true => exact absurd h (hsign d _).2.2
    | finite d' =>
      obtain ⟨c, cs, hmagnitude, hc⟩ := head_magnitude d.digits d.exponent
      obtain ⟨c', cs', hmagnitude', hc'⟩ := head_magnitude d'.digits d'.exponent
      have hminus : c ≠ '-' := by rintro rfl; exact absurd hc (by decide)
      have hminus' : c' ≠ '-' := by rintro rfl; exact absurd hc' (by decide)
      have hboth : d.negative = d'.negative ∧ magnitude d.digits d.exponent = magnitude d'.digits d'.exponent := by
        rw [repr, repr] at h
        cases hd : d.negative with
        | false =>
          cases hd' : d'.negative with
          | false => simpa [hd, hd'] using h
          | true => simp [hd, hd', hmagnitude, hminus] at h
        | true =>
          cases hd' : d'.negative with
          | false => simp [hd, hd', hmagnitude', hminus'.symm] at h
          | true => simpa [hd, hd'] using h
      obtain ⟨hdigits, hexponent⟩ := magnitude_injective hboth.2
      obtain ⟨negative, digits, exponent, normal⟩ := d
      obtain ⟨negative', digits', exponent', normal'⟩ := d'
      obtain rfl : negative = negative' := hboth.1
      obtain rfl : digits = digits' := hdigits
      obtain rfl : exponent = exponent' := hexponent
      rfl

def isNumberChar (c : Char) : Bool := c.isAlphanum || c == '.' || c == '+' || c == '-'

theorem isNumberChar_of_isDigit {c : Char} (h : c.isDigit = true) : isNumberChar c = true := by
  simp [isNumberChar, Char.isAlphanum, h]

theorem isNumberChar_magnitude (digits : ℕ) (exponent : ℤ) : (magnitude digits exponent).all isNumberChar = true := by
  have hdigits : (Nat.toDigits 10 digits).all isNumberChar = true :=
    List.all_eq_true.mpr fun c hc => isNumberChar_of_isDigit (isDigit_toDigits digits c hc)
  have htake : ∀ n, ((Nat.toDigits 10 digits).take n).all isNumberChar = true :=
    fun n => List.all_eq_true.mpr fun c hc => List.all_eq_true.mp hdigits c (List.mem_of_mem_take hc)
  have hdrop : ∀ n, ((Nat.toDigits 10 digits).drop n).all isNumberChar = true :=
    fun n => List.all_eq_true.mpr fun c hc => List.all_eq_true.mp hdigits c (List.mem_of_mem_drop hc)
  have hzeros : ∀ n, (List.replicate n '0').all isNumberChar = true :=
    fun n => List.all_eq_true.mpr fun c hc => isNumberChar_of_isDigit (isDigit_replicate_zero n c hc)
  have hexponent : ∀ e, (exponentText e).all isNumberChar = true := by
    intro e
    have hn : (Nat.toDigits 10 e.natAbs).all isNumberChar = true :=
      List.all_eq_true.mpr fun c hc => isNumberChar_of_isDigit (isDigit_toDigits e.natAbs c hc)
    rw [exponentText]
    split <;> split <;> simp only [List.all_append, List.all_cons, List.all_nil, hn] <;> decide
  rw [magnitude]
  split
  · rw [scientific, List.all_append, List.all_append, htake, hexponent]
    split
    · rfl
    · rw [List.all_cons, hdrop]
      decide
  · rw [positional]
    split
    · simp only [List.all_cons, List.all_append, hzeros, hdigits]
      decide
    · split
      · simp only [List.all_cons, List.all_append, hzeros, hdigits]
        decide
      · simp only [List.all_cons, List.all_append, htake, hdrop]
        decide

theorem isNumberChar_repr (x : Number) : (repr x).all isNumberChar = true := by
  cases x with
  | nan => decide
  | inf negative => cases negative <;> decide
  | finite d =>
    rw [repr, List.all_append, isNumberChar_magnitude]
    split <;> decide

theorem repr_ne_nil (x : Number) : repr x ≠ [] := by
  cases x with
  | nan => decide
  | inf negative => cases negative <;> decide
  | finite d =>
    obtain ⟨c, cs, hmagnitude, -⟩ := head_magnitude d.digits d.exponent
    simp [repr, hmagnitude]

end OpenMinion.DecimalTexts
