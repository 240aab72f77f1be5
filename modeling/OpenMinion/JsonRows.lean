import Mathlib
import OpenMinion.JsonTexts
import OpenMinion.JsonValues
import OpenMinion.PythonText

/-!
# JSON texts of flat rows

The text that `json.dumps` writes for a dictionary of scalars with its default separators, and
its reading: a row is read from its text with the same keys, order and values.
-/
namespace OpenMinion.JsonRows
open DecimalTexts JsonTexts JsonValues PythonText

/-- The decimal of `digits * 10 ^ exponent`. -/
def Decimal.ofScaled (negative : Bool) (digits : ℕ) (exponent : ℤ) : Decimal :=
  if hzero : digits = 0 then ⟨negative, 0, 0, .inr ⟨rfl, rfl⟩⟩
  else if hten : digits % 10 = 0 then Decimal.ofScaled negative (digits / 10) (exponent + 1)
  else ⟨negative, digits, exponent, .inl hten⟩
termination_by digits

def Decimal.ofRat (q : ℚ) : Decimal :=
  Decimal.ofScaled (decide (q < 0)) (q.num.natAbs * 10 ^ q.den.log2 / q.den) (-q.den.log2)

structure Finite where
  value : ℚ
  value_eq : (Decimal.ofRat value).value = value

instance : DecidableEq Finite := fun x y =>
  decidable_of_iff (x.value = y.value) ⟨fun h => by cases x; cases y; cases h; rfl, fun h => by rw [h]⟩

inductive Scalar where
  | null
  | int (n : ℤ)
  | float (x : Finite)
  | str (s : String)
  deriving DecidableEq

def Scalar.json : Scalar → Json
  | .null => .null
  | .int n => .int n
  | .float x => .float x.value
  | .str s => .str s

abbrev Items := List (String × Scalar)

def intText (n : ℤ) : List Char := (if n < 0 then ['-'] else []) ++ Nat.toDigits 10 n.natAbs

def floatText (x : Finite) : List Char := repr (.finite (Decimal.ofRat x.value))

def dumpsScalar : Scalar → List Char
  | .null => ['n', 'u', 'l', 'l']
  | .int n => intText n
  | .float x => floatText x
  | .str s => dumpsStr s

def dumpsItem (item : String × Scalar) : List Char := dumpsStr item.1 ++ ':' :: ' ' :: dumpsScalar item.2

def dumpsRest : Items → List Char
  | [] => ['}']
  | item :: items => ',' :: ' ' :: (dumpsItem item ++ dumpsRest items)

/-- `json.dumps(row, ensure_ascii=True)`. -/
def dumpsRow : Items → List Char
  | [] => ['{', '}']
  | item :: items => '{' :: (dumpsItem item ++ dumpsRest items)

def isJsonSpace (c : Char) : Bool := c == ' ' || c == '\t' || c == '\n' || c == '\r'

def skipSpace (cs : List Char) : List Char := cs.dropWhile isJsonSpace

def readString : ℕ → List Char → Option (List Char × List Char)
  | 0, _ => none
  | _ + 1, [] => none
  | fuel + 1, c :: cs =>
    if c = '"' then some ([], cs)
    else do
      let (char, rest) ← readChar (c :: cs)
      let (body, rest) ← readString fuel rest
      return (char :: body, rest)

def readInt : List Char → ℤ
  | '-' :: digits => -(Nat.ofDigitChars 10 digits 0 : ℤ)
  | digits => Nat.ofDigitChars 10 digits 0

def readFloat : List Char → ℚ
  | '-' :: text => -DecimalTexts.read text
  | text => DecimalTexts.read text

def readNumber (text : List Char) : Json :=
  if text.all fun c => c.isDigit || c == '-' then .int (readInt text) else .float (readFloat text)

/-- `null` behind its first letter. -/
def readNull : List Char → Option (Json × List Char)
  | 'u' :: 'l' :: 'l' :: rest => some (.null, rest)
  | _ => none

def readScalar : List Char → Option (Json × List Char)
  | [] => none
  | c :: cs =>
    if c = '"' then (readString (cs.length + 1) cs).map fun read => (.str (String.ofList read.1), read.2)
    else if c = 'n' then readNull cs
    else if c.isDigit || c == '-' then
      some (readNumber ((c :: cs).takeWhile isNumberChar), (c :: cs).dropWhile isNumberChar)
    else none

def readItem : List Char → Option ((String × Json) × List Char)
  | '"' :: cs => do
    let (key, rest) ← readString (cs.length + 1) cs
    match skipSpace rest with
    | ':' :: rest => do
      let (value, rest) ← readScalar (skipSpace rest)
      return ((String.ofList key, value), rest)
    | _ => none
  | _ => none

def readRest : ℕ → List Char → Option (Dict × List Char)
  | 0, _ => none
  | fuel + 1, cs =>
    match skipSpace cs with
    | '}' :: rest => some ([], rest)
    | ',' :: rest => do
      let (item, rest) ← readItem (skipSpace rest)
      let (items, rest) ← readRest fuel rest
      return (item :: items, rest)
    | _ => none

def readItems (cs : List Char) : Option (Dict × List Char) :=
  match skipSpace cs with
  | '}' :: rest => some ([], rest)
  | cs => do
    let (item, rest) ← readItem cs
    let (items, rest) ← readRest (rest.length + 1) rest
    return (item :: items, rest)

/-- `json.loads` of a dictionary of scalars; `none` for every other text. -/
def loads (cs : List Char) : Option Json :=
  match skipSpace cs with
  | '{' :: rest => do
    let (items, rest) ← readItems rest
    if (skipSpace rest).isEmpty then some (.dict (items.foldl (fun row item => Dict.set row item.1 item.2) [])) else none
  | _ => none

theorem skipSpace_of_not {c : Char} (h : isJsonSpace c = false) (cs : List Char) : skipSpace (c :: cs) = c :: cs := by
  rw [skipSpace, List.dropWhile_cons_of_neg (by simp [h])]

theorem readString_escape (cs rest : List Char) {fuel : ℕ} (h : cs.length < fuel) :
    readString fuel (escape cs ++ '"' :: rest) = some (cs, rest) := by
  induction cs generalizing fuel with
  | nil =>
    obtain ⟨fuel, rfl⟩ := Nat.exists_eq_succ_of_ne_zero (Nat.ne_of_gt h)
    simp [escape, readString]
  | cons c cs ih =>
    obtain ⟨fuel, rfl⟩ := Nat.exists_eq_succ_of_ne_zero (Nat.ne_of_gt (Nat.lt_of_le_of_lt (Nat.zero_le _) h))
    obtain ⟨x, xs, hchar, hx⟩ := head_escapeChar c
    have hread := readChar_escapeChar c (escape cs ++ '"' :: rest)
    rw [escape, List.flatMap_cons, List.append_assoc, ← escape, hchar, List.cons_append, readString, if_neg hx]
    rw [hchar, List.cons_append] at hread
    rw [hread]
    simp [ih (by simpa using h)]

theorem length_le_escape (cs : List Char) : cs.length ≤ (escape cs).length := by
  induction cs with
  | nil => exact Nat.le_refl _
  | cons c cs ih =>
    obtain ⟨x, xs, hchar, _⟩ := head_escapeChar c
    rw [escape, List.flatMap_cons, List.length_append, hchar, ← escape]
    simp only [List.length_cons]
    omega

theorem readString_dumpsStr (s : String) (rest : List Char) :
    readString ((escape s.toList ++ '"' :: rest).length + 1) (escape s.toList ++ '"' :: rest) = some (s.toList, rest) := by
  refine readString_escape s.toList rest ?_
  have hlength := length_le_escape s.toList
  rw [List.length_append]
  omega

theorem dumpsStr_append (s : String) (rest : List Char) : dumpsStr s ++ rest = '"' :: (escape s.toList ++ '"' :: rest) := by
  simp [dumpsStr]

theorem readInt_intText (n : ℤ) : readInt (intText n) = n := by
  have hvalue : (Nat.ofDigitChars 10 (Nat.toDigits 10 n.natAbs) 0 : ℤ) = n.natAbs := by
    rw [Nat.ofDigitChars_ten_toDigits]
  by_cases hn : n < 0
  · rw [intText, if_pos hn, List.singleton_append, readInt, hvalue]
    omega
  · rw [intText, if_neg hn, List.nil_append, readInt, hvalue]
    · omega
    · intro digits hdigits
      have hminus := isDigit_toDigits n.natAbs '-' (by rw [hdigits]; exact List.mem_cons_self)
      exact absurd hminus (by decide)

theorem floatText_eq (x : Finite) : floatText x = (if (Decimal.ofRat x.value).negative then ['-'] else []) ++
    magnitude (Decimal.ofRat x.value).digits (Decimal.ofRat x.value).exponent := rfl

theorem readFloat_floatText (x : Finite) : readFloat (floatText x) = x.value := by
  have hvalue := x.value_eq
  rw [Decimal.value] at hvalue
  rw [floatText_eq]
  cases hnegative : (Decimal.ofRat x.value).negative with
  | true =>
    rw [hnegative] at hvalue
    rw [if_pos rfl, List.singleton_append, readFloat, read_magnitude]
    simpa using hvalue
  | false =>
    rw [hnegative] at hvalue
    obtain ⟨c, rest, htext, hc⟩ := head_magnitude (Decimal.ofRat x.value).digits (Decimal.ofRat x.value).exponent
    rw [if_neg (by decide), List.nil_append, readFloat, read_magnitude]
    · simpa using hvalue
    · intro text heq
      rw [htext] at heq
      rw [(List.cons.inj heq).1] at hc
      exact absurd hc (by decide)

theorem magnitude_not_int (digits : ℕ) (exponent : ℤ) :
    (magnitude digits exponent).all (fun c => c.isDigit || c == '-') = false := by
  rw [magnitude]
  split
  · simp [scientific, exponentText]
  · rw [positional]
    split
    · simp
    · split <;> simp

theorem readNumber_intText (n : ℤ) : readNumber (intText n) = .int n := by
  have hall : (intText n).all (fun c => c.isDigit || c == '-') = true := by
    have hdigits := isDigit_toDigits n.natAbs
    rw [intText, List.all_append, Bool.and_eq_true]
    refine ⟨by split <;> rfl, List.all_eq_true.mpr fun c hc => ?_⟩
    rw [hdigits c hc, Bool.true_or]
  rw [readNumber, if_pos hall, readInt_intText]

theorem readNumber_floatText (x : Finite) : readNumber (floatText x) = .float x.value := by
  have hall : (floatText x).all (fun c => c.isDigit || c == '-') = false := by
    rw [floatText_eq, List.all_append, magnitude_not_int, Bool.and_false]
  rw [readNumber, if_neg (by simp [hall]), readFloat_floatText]

theorem readScalar_number {text : List Char} (hchars : text.all isNumberChar = true)
    (hhead : ∀ c ∈ text.head?, (c.isDigit || c == '-') = true) (hne : text ≠ []) {rest : List Char} (hrest : Stops rest) :
    readScalar (text ++ rest) = some (readNumber text, rest) := by
  obtain ⟨c, cs, rfl⟩ := List.exists_cons_of_ne_nil hne
  have hc := hhead c rfl
  have hstop : rest.takeWhile isNumberChar = [] ∧ rest.dropWhile isNumberChar = rest := by
    cases rest with
    | nil => exact ⟨rfl, rfl⟩
    | cons d rest =>
      have hd := hrest d rfl
      exact ⟨List.takeWhile_cons_of_neg (by simp [hd]), List.dropWhile_cons_of_neg (by simp [hd])⟩
  have hquote : c ≠ '"' := by
    rintro rfl
    exact absurd hc (by decide)
  have hnull : c ≠ 'n' := by
    rintro rfl
    exact absurd hc (by decide)
  rw [List.cons_append, readScalar, if_neg hquote, if_neg hnull, if_pos hc, ← List.cons_append,
    List.takeWhile_append_of_pos (List.all_eq_true.mp hchars), List.dropWhile_append_of_pos (List.all_eq_true.mp hchars),
    hstop.1, hstop.2, List.append_nil]

theorem head_intText (n : ℤ) : ∃ c cs, intText n = c :: cs ∧ (c.isDigit || c == '-') = true := by
  obtain ⟨c, cs, htext⟩ := List.exists_cons_of_ne_nil (@Nat.toDigits_ne_nil n.natAbs 10)
  have hc := isDigit_toDigits n.natAbs c (by rw [htext]; exact List.mem_cons_self)
  rw [intText, htext]
  split
  · exact ⟨'-', _, rfl, by decide⟩
  · exact ⟨c, cs, rfl, by rw [hc]; rfl⟩

theorem head_floatText (x : Finite) : ∃ c cs, floatText x = c :: cs ∧ (c.isDigit || c == '-') = true := by
  obtain ⟨c, cs, htext, hc⟩ := head_magnitude (Decimal.ofRat x.value).digits (Decimal.ofRat x.value).exponent
  rw [floatText_eq, htext]
  split
  · exact ⟨'-', _, rfl, by decide⟩
  · exact ⟨c, cs, rfl, by rw [hc]; rfl⟩

theorem isNumberChar_intText (n : ℤ) : (intText n).all isNumberChar = true := by
  rw [intText, List.all_append, Bool.and_eq_true]
  exact ⟨by split <;> rfl, List.all_eq_true.mpr fun c hc => isNumberChar_of_isDigit (isDigit_toDigits _ c hc)⟩

theorem readScalar_dumpsScalar (v : Scalar) {rest : List Char} (hrest : Stops rest) :
    readScalar (dumpsScalar v ++ rest) = some (v.json, rest) := by
  cases v with
  | null => simp [dumpsScalar, readScalar, readNull, Scalar.json]
  | int n =>
    obtain ⟨c, cs, htext, hc⟩ := head_intText n
    have hhead : ∀ d ∈ (intText n).head?, (d.isDigit || d == '-') = true := by
      rw [htext]
      intro d hd
      cases hd
      exact hc
    rw [dumpsScalar, readScalar_number (isNumberChar_intText n) hhead (by simp [htext]) hrest, readNumber_intText,
      Scalar.json]
  | float x =>
    obtain ⟨c, cs, htext, hc⟩ := head_floatText x
    have hhead : ∀ d ∈ (floatText x).head?, (d.isDigit || d == '-') = true := by
      rw [htext]
      intro d hd
      cases hd
      exact hc
    have hchars : (floatText x).all isNumberChar = true := isNumberChar_repr _
    rw [dumpsScalar, readScalar_number hchars hhead (by simp [htext]) hrest, readNumber_floatText, Scalar.json]
  | str s =>
    rw [dumpsScalar, dumpsStr_append, readScalar, if_pos rfl, readString_dumpsStr]
    simp [Scalar.json]

theorem skipSpace_dumpsScalar (v : Scalar) (rest : List Char) : skipSpace (dumpsScalar v ++ rest) = dumpsScalar v ++ rest := by
  have hnumber : ∀ c : Char, (c.isDigit || c == '-') = true → isJsonSpace c = false := by
    intro c hc
    by_contra hspace
    simp only [isJsonSpace, Bool.not_eq_false, Bool.or_eq_true, beq_iff_eq] at hspace
    rcases hspace with ((rfl | rfl) | rfl) | rfl <;> exact absurd hc (by decide)
  cases v with
  | null => rfl
  | int n =>
    obtain ⟨c, cs, htext, hc⟩ := head_intText n
    rw [dumpsScalar, htext, List.cons_append, skipSpace_of_not (hnumber c hc)]
  | float x =>
    obtain ⟨c, cs, htext, hc⟩ := head_floatText x
    rw [dumpsScalar, htext, List.cons_append, skipSpace_of_not (hnumber c hc)]
  | str s => rw [dumpsScalar, dumpsStr_append, skipSpace_of_not (by decide)]

theorem readItem_dumpsItem (item : String × Scalar) {rest : List Char} (hrest : Stops rest) :
    readItem (dumpsItem item ++ rest) = some ((item.1, item.2.json), rest) := by
  have hspace : skipSpace (' ' :: (dumpsScalar item.2 ++ rest)) = dumpsScalar item.2 ++ rest := by
    rw [skipSpace, List.dropWhile_cons_of_pos (by decide), ← skipSpace, skipSpace_dumpsScalar]
  rw [dumpsItem, List.append_assoc, dumpsStr_append, readItem, readString_dumpsStr]
  simp [skipSpace_of_not (show isJsonSpace ':' = false by decide), hspace, readScalar_dumpsScalar item.2 hrest]

theorem stops_dumpsRest (items : Items) (rest : List Char) : Stops (dumpsRest items ++ rest) := by
  cases items with
  | nil => exact stops_cons (by decide) _
  | cons item items => exact stops_cons (by decide) _

def jsonItems (items : Items) : Dict := items.map fun item => (item.1, item.2.json)

theorem readRest_dumpsRest (items : Items) (rest : List Char) {fuel : ℕ} (h : items.length < fuel) :
    readRest fuel (dumpsRest items ++ rest) = some (jsonItems items, rest) := by
  induction items generalizing fuel with
  | nil =>
    obtain ⟨fuel, rfl⟩ := Nat.exists_eq_succ_of_ne_zero (Nat.ne_of_gt h)
    simp [dumpsRest, readRest, skipSpace_of_not (show isJsonSpace '}' = false by decide), jsonItems]
  | cons item items ih =>
    obtain ⟨fuel, rfl⟩ := Nat.exists_eq_succ_of_ne_zero (Nat.ne_of_gt (Nat.lt_of_le_of_lt (Nat.zero_le _) h))
    have hspace : skipSpace (' ' :: (dumpsItem item ++ (dumpsRest items ++ rest))) =
        dumpsItem item ++ (dumpsRest items ++ rest) := by
      rw [skipSpace, List.dropWhile_cons_of_pos (by decide), ← skipSpace, dumpsItem, List.append_assoc, dumpsStr_append,
        skipSpace_of_not (by decide)]
    rw [dumpsRest, List.cons_append, List.cons_append, List.append_assoc, readRest,
      skipSpace_of_not (show isJsonSpace ',' = false by decide)]
    simp [hspace, readItem_dumpsItem item (stops_dumpsRest items rest), ih (by simpa using h), jsonItems]

theorem length_le_dumpsRest (items : Items) : items.length < (dumpsRest items).length := by
  induction items with
  | nil => simp [dumpsRest]
  | cons item items ih =>
    simp only [dumpsRest, List.length_cons, List.length_append]
    omega

theorem readItems_dumpsRow (items : Items) (rest : List Char) :
    ∃ body, dumpsRow items ++ rest = '{' :: body ∧ readItems body = some (jsonItems items, rest) := by
  cases items with
  | nil =>
    refine ⟨'}' :: rest, rfl, ?_⟩
    simp [readItems, skipSpace_of_not (show isJsonSpace '}' = false by decide), jsonItems]
  | cons item items =>
    refine ⟨dumpsItem item ++ (dumpsRest items ++ rest), by simp [dumpsRow], ?_⟩
    have hhead : dumpsItem item ++ (dumpsRest items ++ rest) =
        '"' :: (escape item.1.toList ++ '"' :: (':' :: ' ' :: dumpsScalar item.2 ++ (dumpsRest items ++ rest))) := by
      rw [dumpsItem, List.append_assoc, dumpsStr_append]
    have hitem := readItem_dumpsItem item (stops_dumpsRest items rest)
    have hlength := length_le_dumpsRest items
    have hfuel : items.length < (dumpsRest items ++ rest).length + 1 := by
      rw [List.length_append]
      omega
    have hrest := readRest_dumpsRest items rest hfuel
    rw [hhead] at hitem ⊢
    rw [readItems, skipSpace_of_not (show isJsonSpace '"' = false by decide)]
    split
    · next heq => exact absurd (List.cons.inj heq).1 (by decide)
    · rw [hitem, Option.bind_eq_bind, Option.bind_some]
      dsimp only
      rw [hrest]
      rfl

theorem foldl_set {row : Dict} (h : (row.map (·.1)).Nodup) :
    row.foldl (fun row item => Dict.set row item.1 item.2) [] = row := by
  have hfold : ∀ (left : Dict), ((left ++ row).map (·.1)).Nodup →
      row.foldl (fun row item => Dict.set row item.1 item.2) left = left ++ row := by
    clear h
    induction row with
    | nil => exact fun left _ => (List.append_nil left).symm
    | cons item row ih =>
      intro left hnodup
      have hnew : Dict.has left item.1 = false := by
        rw [Dict.has, List.any_eq_false]
        intro other hother heq
        rw [List.map_append, List.nodup_append] at hnodup
        exact hnodup.2.2 other.1 (List.mem_map_of_mem hother) item.1 (by simp) (by simpa using heq)
      have hset : Dict.set left item.1 item.2 = left ++ [item] := by rw [Dict.set, if_neg (by simp [hnew])]
      rw [List.foldl_cons, hset, ih _ (by simpa using hnodup), List.append_assoc, List.singleton_append]
  exact hfold [] h

/-- **A row is read from the line that it is written to.** -/
theorem loads_dumpsRow {items : Items} (h : (items.map (·.1)).Nodup) :
    loads (dumpsRow items ++ ['\n']) = some (.dict (jsonItems items)) := by
  obtain ⟨body, hbody, hitems⟩ := readItems_dumpsRow items ['\n']
  have hkeys : ((jsonItems items).map (·.1)).Nodup := by rwa [jsonItems, List.map_map]
  rw [hbody, loads, skipSpace_of_not (by decide)]
  simp only [hitems, Option.bind_eq_bind, Option.bind_some, foldl_set hkeys]
  rfl

def universalNewlines : List Char → List Char
  | '\r' :: '\n' :: cs => '\n' :: universalNewlines cs
  | '\r' :: cs => '\n' :: universalNewlines cs
  | c :: cs => c :: universalNewlines cs
  | [] => []

def lines : List Char → List (List Char)
  | [] => []
  | c :: cs =>
    if c = '\n' then ['\n'] :: lines cs
    else match lines cs with
      | [] => [[c]]
      | line :: rest => (c :: line) :: rest

theorem lines_append {line : List Char} (h : ∀ c ∈ line, c ≠ '\n') (cs : List Char) :
    lines (line ++ '\n' :: cs) = (line ++ ['\n']) :: lines cs := by
  induction line with
  | nil => simp [lines]
  | cons c line ih =>
    rw [List.cons_append, lines, if_neg (h c List.mem_cons_self), ih fun d hd => h d (List.mem_cons_of_mem _ hd)]
    rfl

theorem universalNewlines_eq {cs : List Char} (h : ∀ c ∈ cs, c ≠ '\r') : universalNewlines cs = cs := by
  induction cs with
  | nil => rfl
  | cons c cs ih =>
    have hc := h c List.mem_cons_self
    rw [universalNewlines.eq_3, ih fun d hd => h d (List.mem_cons_of_mem _ hd)]
    · exact fun _ heq => absurd heq hc
    · exact fun heq => absurd heq hc

/-- The characters that `ensure_ascii` writes are printable. -/
def Printable (cs : List Char) : Prop := ∀ c ∈ cs, 32 ≤ c.toNat

theorem Printable.append {cs ds : List Char} (h : Printable cs) (h' : Printable ds) : Printable (cs ++ ds) := by
  intro c hc
  exact (List.mem_append.mp hc).elim (h c) (h' c)

theorem Printable.cons {c : Char} {cs : List Char} (h : 32 ≤ c.toNat) (h' : Printable cs) : Printable (c :: cs) := by
  intro d hd
  exact (List.mem_cons.mp hd).elim (fun heq => heq ▸ h) (h' d)

theorem Printable.nil : Printable [] := fun _ hc => nomatch hc

theorem printable_hex4 (n : ℕ) : Printable (hex4 n) := by
  have hdigit : ∀ m < 16, 32 ≤ (Nat.digitChar m).toNat := by decide
  have hlt : ∀ k, k % 16 < 16 := fun k => Nat.mod_lt k (by decide)
  exact .cons (hdigit _ (hlt _)) (.cons (hdigit _ (hlt _)) (.cons (hdigit _ (hlt _)) (.cons (hdigit _ (hlt _)) .nil)))

theorem printable_escapeUnit (n : ℕ) : Printable (escapeUnit n) := .cons (by decide) (.cons (by decide) (printable_hex4 n))

theorem printable_escapeChar (c : Char) : Printable (escapeChar c) := by
  have hpair : ∀ d : Char, 32 ≤ d.toNat → Printable ['\\', d] := fun d hd => .cons (by decide) (.cons hd .nil)
  rw [escapeChar]
  split
  · exact hpair _ (by decide)
  split
  · exact hpair _ (by decide)
  split
  · exact hpair _ (by decide)
  split
  · exact hpair _ (by decide)
  split
  · exact hpair _ (by decide)
  split
  · exact hpair _ (by decide)
  split
  · exact hpair _ (by decide)
  split
  · next hrange => exact .cons hrange.1 .nil
  split
  · exact printable_escapeUnit _
  · exact (printable_escapeUnit _).append (printable_escapeUnit _)

theorem printable_dumpsStr (s : String) : Printable (dumpsStr s) := by
  refine .append (.cons (by decide) fun c hc => ?_) (.cons (by decide) .nil)
  obtain ⟨d, _, hd⟩ := List.mem_flatMap.mp hc
  exact printable_escapeChar d c hd

theorem printable_number {text : List Char} (h : text.all isNumberChar = true) : Printable text := by
  intro c hc
  have hnumber := List.all_eq_true.mp h c hc
  simp only [isNumberChar, Char.isAlphanum, Char.isAlpha, Char.isUpper, Char.isLower, Char.isDigit, Bool.or_eq_true,
    Bool.and_eq_true, decide_eq_true_eq, beq_iff_eq, UInt32.le_iff_toNat_le] at hnumber
  rcases hnumber with ((((h | h) | h) | rfl) | rfl) | rfl
  · exact le_trans (by decide) h.1
  · exact le_trans (by decide) h.1
  · exact le_trans (by decide) h.1
  · decide
  · decide
  · decide

theorem printable_dumpsScalar (v : Scalar) : Printable (dumpsScalar v) := by
  cases v with
  | null => exact .cons (by decide) (.cons (by decide) (.cons (by decide) (.cons (by decide) .nil)))
  | int n => exact printable_number (isNumberChar_intText n)
  | float x =>
    have hchars : (floatText x).all isNumberChar = true := isNumberChar_repr _
    exact printable_number hchars
  | str s => exact printable_dumpsStr s

theorem printable_dumpsItem (item : String × Scalar) : Printable (dumpsItem item) :=
  (printable_dumpsStr item.1).append (.cons (by decide) (.cons (by decide) (printable_dumpsScalar item.2)))

theorem printable_dumpsRest (items : Items) : Printable (dumpsRest items) := by
  induction items with
  | nil => exact .cons (by decide) .nil
  | cons item items ih => exact .cons (by decide) (.cons (by decide) ((printable_dumpsItem item).append ih))

theorem printable_dumpsRow (items : Items) : Printable (dumpsRow items) := by
  cases items with
  | nil => exact .cons (by decide) (.cons (by decide) .nil)
  | cons item items => exact .cons (by decide) ((printable_dumpsItem item).append (printable_dumpsRest items))

def dumpsRows (rows : List Items) : List Char := rows.flatMap fun row => dumpsRow row ++ ['\n']

theorem lines_dumpsRows (rows : List Items) :
    lines (universalNewlines (dumpsRows rows)) = rows.map fun row => dumpsRow row ++ ['\n'] := by
  have hnewlines : universalNewlines (dumpsRows rows) = dumpsRows rows := by
    refine universalNewlines_eq fun c hc => ?_
    obtain ⟨row, _, hrow⟩ := List.mem_flatMap.mp hc
    rintro rfl
    rcases List.mem_append.mp hrow with hrow | hrow
    · exact absurd (printable_dumpsRow row _ hrow) (by decide)
    · exact absurd (List.mem_singleton.mp hrow) (by decide)
  rw [hnewlines]
  induction rows with
  | nil => rfl
  | cons row rows ih =>
    have hline : ∀ c ∈ dumpsRow row, c ≠ '\n' := by
      rintro c hc rfl
      exact absurd (printable_dumpsRow row _ hc) (by decide)
    have hrest : lines (dumpsRows rows) = rows.map fun row => dumpsRow row ++ ['\n'] := by
      refine ih (universalNewlines_eq fun c hc => ?_)
      obtain ⟨row, _, hrow⟩ := List.mem_flatMap.mp hc
      rintro rfl
      rcases List.mem_append.mp hrow with hrow | hrow
      · exact absurd (printable_dumpsRow row _ hrow) (by decide)
      · exact absurd (List.mem_singleton.mp hrow) (by decide)
    rw [dumpsRows, List.flatMap_cons, List.append_assoc, List.singleton_append, lines_append hline, ← dumpsRows, hrest]
    rfl

theorem strip_dumpsRow (items : Items) : strip (String.ofList (dumpsRow items ++ ['\n'])) ≠ "" := by
  obtain ⟨body, hbody, _⟩ := readItems_dumpsRow items ['\n']
  rw [hbody, strip, stripChars, String.toList_ofList, List.dropWhile_cons_of_neg (by decide)]
  intro hempty
  have hspaces := List.rdropWhile_eq_nil_iff.mp (String.ofList_eq_empty_iff.mp hempty)
  exact absurd (hspaces '{' List.mem_cons_self) (by decide)

end OpenMinion.JsonRows
