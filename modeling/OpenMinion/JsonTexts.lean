import OpenMinion.DecimalTexts
import Mathlib.Data.List.Sort
import Mathlib.Data.String.Basic

/-!
# Compact ASCII texts of JSON values

The text that `json.dumps` writes with the separators `,` and `:` and with `ensure_ascii`. It ends where its value
does, so that two values of one text are equal.
-/
namespace OpenMinion.JsonTexts
open DecimalTexts

structure NumberText where
  text : List Char
  nonempty : text ≠ []
  chars : text.all isNumberChar = true
  deriving DecidableEq

def NumberText.ofNumber (x : Number) : NumberText := ⟨repr x, repr_ne_nil x, isNumberChar_repr x⟩

def NumberText.ofNat (n : ℕ) : NumberText where
  text := Nat.toDigits 10 n
  nonempty := Nat.toDigits_ne_nil
  chars := List.all_eq_true.mpr fun c hc => isNumberChar_of_isDigit (isDigit_toDigits n c hc)

inductive Value where
  | str (s : String)
  | number (n : NumberText)
  | list (items : List Value)
  | dict (items : List (String × Value))

def hex4 (n : ℕ) : List Char :=
  [Nat.digitChar (n / 4096 % 16), Nat.digitChar (n / 256 % 16), Nat.digitChar (n / 16 % 16), Nat.digitChar (n % 16)]

def escapeUnit (n : ℕ) : List Char := '\\' :: 'u' :: hex4 n

/-- A character as `ensure_ascii` writes it: two code units where it is outside of the basic plane. -/
def escapeChar (c : Char) : List Char :=
  if c = '"' then ['\\', '"']
  else if c = '\\' then ['\\', '\\']
  else if c = '\n' then ['\\', 'n']
  else if c = '\r' then ['\\', 'r']
  else if c = '\t' then ['\\', 't']
  else if c = '\x0c' then ['\\', 'f']
  else if c = '\x08' then ['\\', 'b']
  else if 32 ≤ c.toNat ∧ c.toNat ≤ 126 then [c]
  else if c.toNat < 0x10000 then escapeUnit c.toNat
  else escapeUnit (0xD800 + (c.toNat - 0x10000) / 1024) ++ escapeUnit (0xDC00 + (c.toNat - 0x10000) % 1024)

def escape (cs : List Char) : List Char := cs.flatMap escapeChar

def dumpsStr (s : String) : List Char := '"' :: escape s.toList ++ ['"']

mutual
def dumps : Value → List Char
  | .str s => dumpsStr s
  | .number n => n.text
  | .list items => '[' :: dumpsList items
  | .dict items => '{' :: dumpsDict items

def dumpsList : List Value → List Char
  | [] => [']']
  | item :: items => dumps item ++ dumpsListRest items

def dumpsListRest : List Value → List Char
  | [] => [']']
  | item :: items => ',' :: (dumps item ++ dumpsListRest items)

def dumpsDict : List (String × Value) → List Char
  | [] => ['}']
  | (key, value) :: items => dumpsStr key ++ ':' :: (dumps value ++ dumpsDictRest items)

def dumpsDictRest : List (String × Value) → List Char
  | [] => ['}']
  | (key, value) :: items => ',' :: (dumpsStr key ++ ':' :: (dumps value ++ dumpsDictRest items))
end

def sortKeys (items : List (String × Value)) : List (String × Value) := items.insertionSort fun a b => a.1 ≤ b.1

def hexValue (c : Char) : ℕ := if c.isDigit then c.toNat - 48 else c.toNat - 87

theorem hexValue_digitChar : ∀ n < 16, hexValue (Nat.digitChar n) = n := by decide

def readHex4 : List Char → ℕ
  | [a, b, c, d] => ((hexValue a * 16 + hexValue b) * 16 + hexValue c) * 16 + hexValue d
  | _ => 0

theorem readHex4_hex4 {n : ℕ} (h : n < 65536) : readHex4 (hex4 n) = n := by
  simp only [hex4, readHex4]
  rw [hexValue_digitChar _ (by omega), hexValue_digitChar _ (by omega), hexValue_digitChar _ (by omega),
    hexValue_digitChar _ (by omega)]
  omega

def readUnits : List Char → Option (Char × List Char)
  | a :: b :: c :: d :: rest =>
    let high := readHex4 [a, b, c, d]
    if 0xD800 ≤ high ∧ high < 0xDC00 then
      match rest with
      | _ :: _ :: a :: b :: c :: d :: rest =>
        some (Char.ofNat (0x10000 + (high - 0xD800) * 1024 + (readHex4 [a, b, c, d] - 0xDC00)), rest)
      | _ => none
    else some (Char.ofNat high, rest)
  | _ => none

def unescape (c : Char) : Char :=
  if c = 'n' then '\n'
  else if c = 'r' then '\r'
  else if c = 't' then '\t'
  else if c = 'f' then '\x0c'
  else if c = 'b' then '\x08'
  else c

def readChar : List Char → Option (Char × List Char)
  | '\\' :: 'u' :: rest => readUnits rest
  | '\\' :: c :: rest => some (unescape c, rest)
  | c :: rest => some (c, rest)
  | [] => none

theorem readUnits_hex4 {n : ℕ} (h : n < 65536) (hplain : ¬ (0xD800 ≤ n ∧ n < 0xDC00)) (rest : List Char) :
    readUnits (hex4 n ++ rest) = some (Char.ofNat n, rest) := by
  have hread : readHex4 [Nat.digitChar (n / 4096 % 16), Nat.digitChar (n / 256 % 16), Nat.digitChar (n / 16 % 16),
      Nat.digitChar (n % 16)] = n := readHex4_hex4 h
  rw [hex4, List.cons_append, List.cons_append, List.cons_append, List.cons_append, List.nil_append, readUnits.eq_def]
  dsimp only
  rw [hread, if_neg hplain]

theorem readUnits_pair {high low : ℕ} (hhigh : 0xD800 ≤ high ∧ high < 0xDC00) (hlow : low < 65536) (rest : List Char) :
    readUnits (hex4 high ++ (escapeUnit low ++ rest)) =
      some (Char.ofNat (0x10000 + (high - 0xD800) * 1024 + (low - 0xDC00)), rest) := by
  have hreadHigh : readHex4 [Nat.digitChar (high / 4096 % 16), Nat.digitChar (high / 256 % 16), Nat.digitChar (high / 16 % 16),
      Nat.digitChar (high % 16)] = high := readHex4_hex4 (by omega)
  have hreadLow : readHex4 [Nat.digitChar (low / 4096 % 16), Nat.digitChar (low / 256 % 16), Nat.digitChar (low / 16 % 16),
      Nat.digitChar (low % 16)] = low := readHex4_hex4 hlow
  rw [hex4, List.cons_append, List.cons_append, List.cons_append, List.cons_append, List.nil_append, readUnits.eq_def]
  dsimp only
  rw [hreadHigh, if_pos hhigh]
  dsimp only [escapeUnit, hex4, List.cons_append, List.nil_append]
  rw [hreadLow]

theorem toNat_not_surrogate (c : Char) : ¬ (0xD800 ≤ c.toNat ∧ c.toNat < 0xDC00) := by
  have hvalid := c.valid
  simp only [UInt32.isValidChar, Nat.isValidChar] at hvalid
  simp only [Char.toNat]
  omega

theorem toNat_lt (c : Char) : c.toNat < 0x110000 := by
  have hvalid := c.valid
  simp only [UInt32.isValidChar, Nat.isValidChar] at hvalid
  simp only [Char.toNat]
  omega

theorem readChar_escapeChar (c : Char) (rest : List Char) : readChar (escapeChar c ++ rest) = some (c, rest) := by
  rw [escapeChar]
  split
  · next h => rw [h]; rfl
  split
  · next h => rw [h]; rfl
  split
  · next h => rw [h]; rfl
  split
  · next h => rw [h]; rfl
  split
  · next h => rw [h]; rfl
  split
  · next h => rw [h]; rfl
  split
  · next h => rw [h]; rfl
  split
  · next hbackslash _ _ _ _ _ _ =>
    rw [List.singleton_append, readChar.eq_def]
    split
    · next heq => exact absurd (List.cons.inj heq).1 hbackslash
    · next heq => exact absurd (List.cons.inj heq).1 hbackslash
    · next heq =>
      cases heq
      rfl
    · next heq => cases heq
  split
  · next hunit =>
    rw [escapeUnit, List.cons_append, List.cons_append, readChar, readUnits_hex4 hunit (toNat_not_surrogate c),
      Char.ofNat_toNat]
  · next hunit =>
    have hlt := toNat_lt c
    rw [escapeUnit, List.append_assoc, List.cons_append, List.cons_append, readChar,
      readUnits_pair (by omega) (by omega)]
    have hvalue : 0x10000 + (0xD800 + (c.toNat - 0x10000) / 1024 - 0xD800) * 1024 +
        (0xDC00 + (c.toNat - 0x10000) % 1024 - 0xDC00) = c.toNat := by omega
    rw [hvalue, Char.ofNat_toNat]

theorem head_escapeChar (c : Char) : ∃ x xs, escapeChar c = x :: xs ∧ x ≠ '"' := by
  rw [escapeChar]
  split
  · exact ⟨_, _, rfl, by decide⟩
  split
  · exact ⟨_, _, rfl, by decide⟩
  split
  · exact ⟨_, _, rfl, by decide⟩
  split
  · exact ⟨_, _, rfl, by decide⟩
  split
  · exact ⟨_, _, rfl, by decide⟩
  split
  · exact ⟨_, _, rfl, by decide⟩
  split
  · exact ⟨_, _, rfl, by decide⟩
  split
  · next hquote _ _ _ _ _ _ _ => exact ⟨c, [], rfl, hquote⟩
  split
  · exact ⟨_, _, rfl, by decide⟩
  · exact ⟨_, _, rfl, by decide⟩

theorem escape_append_inj (cs ds rest rest' : List Char) (h : escape cs ++ '"' :: rest = escape ds ++ '"' :: rest') :
    cs = ds ∧ rest = rest' := by
  induction cs generalizing ds with
  | nil =>
    cases ds with
    | nil => exact ⟨rfl, (List.cons.inj h).2⟩
    | cons d ds =>
      obtain ⟨x, xs, hchar, hx⟩ := head_escapeChar d
      rw [escape, escape, List.flatMap_cons, hchar] at h
      exact absurd (List.cons.inj h).1.symm hx
  | cons c cs ih =>
    cases ds with
    | nil =>
      obtain ⟨x, xs, hchar, hx⟩ := head_escapeChar c
      rw [escape, escape, List.flatMap_cons, hchar] at h
      exact absurd (List.cons.inj h).1 hx
    | cons d ds =>
      rw [escape, escape, List.flatMap_cons, List.flatMap_cons, List.append_assoc, List.append_assoc] at h
      have hread := congrArg readChar h
      rw [readChar_escapeChar, readChar_escapeChar] at hread
      obtain ⟨rfl, hbehind⟩ := Prod.mk.inj (Option.some.inj hread)
      obtain ⟨rfl, hrest⟩ := ih ds hbehind
      exact ⟨rfl, hrest⟩

theorem dumpsStr_append_inj {s t : String} {rest rest' : List Char} (h : dumpsStr s ++ rest = dumpsStr t ++ rest') :
    s = t ∧ rest = rest' := by
  rw [dumpsStr, dumpsStr, List.cons_append, List.cons_append, List.append_assoc, List.append_assoc] at h
  obtain ⟨hbody, hrest⟩ := escape_append_inj _ _ _ _ (List.cons.inj h).2
  exact ⟨String.toList_inj.mp hbody, hrest⟩

def Stops (rest : List Char) : Prop := ∀ c ∈ rest.head?, isNumberChar c = false

theorem number_append_inj {m n : NumberText} {rest rest' : List Char} (hrest : Stops rest) (hrest' : Stops rest')
    (h : m.text ++ rest = n.text ++ rest') : m = n ∧ rest = rest' := by
  have htake : ∀ (k : NumberText) (r : List Char), Stops r → (k.text ++ r).takeWhile isNumberChar = k.text := by
    intro k r hr
    rw [List.takeWhile_append_of_pos (List.all_eq_true.mp k.chars)]
    cases r with
    | nil => exact List.append_nil _
    | cons c r =>
      rw [List.takeWhile_cons_of_neg (by simp [hr c rfl]), List.append_nil]
  have htext : m.text = n.text := by rw [← htake m rest hrest, h, htake n rest' hrest']
  refine ⟨?_, ?_⟩
  · cases m
    cases n
    simpa using htext
  · rw [htext] at h
    exact List.append_cancel_left h

theorem head_number (n : NumberText) : ∃ c cs, n.text = c :: cs ∧ isNumberChar c = true := by
  obtain ⟨c, cs, htext⟩ := List.exists_cons_of_ne_nil n.nonempty
  refine ⟨c, cs, htext, List.all_eq_true.mp n.chars c ?_⟩
  rw [htext]
  exact List.mem_cons_self

theorem stops_cons {c : Char} (h : isNumberChar c = false) (rest : List Char) : Stops (c :: rest) := by
  intro x hx
  cases hx
  exact h

theorem stops_listRest (items : List Value) (rest : List Char) : Stops (dumpsListRest items ++ rest) := by
  cases items with
  | nil => exact stops_cons (by decide) rest
  | cons item items => exact stops_cons (by decide) _

theorem stops_dictRest (items : List (String × Value)) (rest : List Char) : Stops (dumpsDictRest items ++ rest) := by
  cases items with
  | nil => exact stops_cons (by decide) rest
  | cons item items => exact stops_cons (by decide) _

theorem head_dumps (v : Value) : ∃ c cs, dumps v = c :: cs ∧ c ≠ ']' := by
  cases v with
  | str s => exact ⟨'"', _, rfl, by decide⟩
  | number n =>
    obtain ⟨c, cs, htext, hc⟩ := head_number n
    refine ⟨c, cs, htext, ?_⟩
    rintro rfl
    exact absurd hc (by decide)
  | list items => exact ⟨'[', _, rfl, by decide⟩
  | dict items => exact ⟨'{', _, rfl, by decide⟩

theorem number_ne_cons (n : NumberText) {c : Char} (h : isNumberChar c = false) (rest rest' : List Char) :
    n.text ++ rest ≠ c :: rest' := by
  obtain ⟨x, xs, htext, hx⟩ := head_number n
  rw [htext]
  intro heq
  rw [(List.cons.inj heq).1, h] at hx
  cases hx

mutual
theorem dumps_append_inj : ∀ (v w : Value) {rest rest' : List Char}, Stops rest → Stops rest' →
    dumps v ++ rest = dumps w ++ rest' → v = w ∧ rest = rest'
  | .str s, w => by
    intro hrest hrest' h
    cases w with
    | str t =>
      obtain ⟨rfl, hbehind⟩ := dumpsStr_append_inj h
      exact ⟨rfl, hbehind⟩
    | number n => exact absurd h.symm (number_ne_cons n (by decide) _ _)
    | list items => exact absurd (List.cons.inj h).1 (by decide)
    | dict items => exact absurd (List.cons.inj h).1 (by decide)
  | .number m, w => by
    intro hrest hrest' h
    cases w with
    | str t => exact absurd h (number_ne_cons m (by decide) _ _)
    | number n =>
      obtain ⟨rfl, hbehind⟩ := number_append_inj hrest hrest' h
      exact ⟨rfl, hbehind⟩
    | list items => exact absurd h (number_ne_cons m (by decide) _ _)
    | dict items => exact absurd h (number_ne_cons m (by decide) _ _)
  | .list items, w => by
    intro hrest hrest' h
    cases w with
    | str t => exact absurd (List.cons.inj h).1 (by decide)
    | number n => exact absurd h.symm (number_ne_cons n (by decide) _ _)
    | list others =>
      obtain ⟨rfl, hbehind⟩ := dumpsList_append_inj items others (List.cons.inj h).2
      exact ⟨rfl, hbehind⟩
    | dict others => exact absurd (List.cons.inj h).1 (by decide)
  | .dict items, w => by
    intro hrest hrest' h
    cases w with
    | str t => exact absurd (List.cons.inj h).1 (by decide)
    | number n => exact absurd h.symm (number_ne_cons n (by decide) _ _)
    | list others => exact absurd (List.cons.inj h).1 (by decide)
    | dict others =>
      obtain ⟨rfl, hbehind⟩ := dumpsDict_append_inj items others (List.cons.inj h).2
      exact ⟨rfl, hbehind⟩

theorem dumpsList_append_inj : ∀ (items others : List Value) {rest rest' : List Char},
    dumpsList items ++ rest = dumpsList others ++ rest' → items = others ∧ rest = rest'
  | [], others => by
    intro h
    cases others with
    | nil => exact ⟨rfl, (List.cons.inj h).2⟩
    | cons other others =>
      obtain ⟨c, cs, htext, hc⟩ := head_dumps other
      rw [dumpsList, dumpsList, htext] at h
      exact absurd (List.cons.inj h).1.symm hc
  | item :: items, others => by
    intro h
    cases others with
    | nil =>
      obtain ⟨c, cs, htext, hc⟩ := head_dumps item
      rw [dumpsList, dumpsList, htext] at h
      exact absurd (List.cons.inj h).1 hc
    | cons other others =>
      rw [dumpsList, dumpsList, List.append_assoc, List.append_assoc] at h
      obtain ⟨rfl, hitems⟩ := dumps_append_inj item other (stops_listRest items _) (stops_listRest others _) h
      obtain ⟨rfl, hbehind⟩ := dumpsListRest_append_inj items others hitems
      exact ⟨rfl, hbehind⟩

theorem dumpsListRest_append_inj : ∀ (items others : List Value) {rest rest' : List Char},
    dumpsListRest items ++ rest = dumpsListRest others ++ rest' → items = others ∧ rest = rest'
  | [], others => by
    intro h
    cases others with
    | nil => exact ⟨rfl, (List.cons.inj h).2⟩
    | cons other others => exact absurd (List.cons.inj h).1 (by decide)
  | item :: items, others => by
    intro h
    cases others with
    | nil => exact absurd (List.cons.inj h).1 (by decide)
    | cons other others =>
      rw [dumpsListRest, dumpsListRest, List.cons_append, List.cons_append, List.append_assoc, List.append_assoc] at h
      have hitem := (List.cons.inj h).2
      obtain ⟨rfl, hitems⟩ := dumps_append_inj item other (stops_listRest items _) (stops_listRest others _) hitem
      obtain ⟨rfl, hbehind⟩ := dumpsListRest_append_inj items others hitems
      exact ⟨rfl, hbehind⟩

theorem dumpsDict_append_inj : ∀ (items others : List (String × Value)) {rest rest' : List Char},
    dumpsDict items ++ rest = dumpsDict others ++ rest' → items = others ∧ rest = rest'
  | [], others => by
    intro h
    cases others with
    | nil => exact ⟨rfl, (List.cons.inj h).2⟩
    | cons other others => exact absurd (List.cons.inj h).1 (by decide)
  | (key, value) :: items, others => by
    intro h
    cases others with
    | nil => exact absurd (List.cons.inj h).1 (by decide)
    | cons other others =>
      obtain ⟨otherKey, otherValue⟩ := other
      rw [dumpsDict, dumpsDict, List.append_assoc, List.append_assoc, List.cons_append, List.cons_append, List.append_assoc,
        List.append_assoc] at h
      obtain ⟨rfl, hvalue⟩ := dumpsStr_append_inj h
      obtain ⟨rfl, hitems⟩ := dumps_append_inj value otherValue (stops_dictRest items _) (stops_dictRest others _) (List.cons.inj hvalue).2
      obtain ⟨rfl, hbehind⟩ := dumpsDictRest_append_inj items others hitems
      exact ⟨rfl, hbehind⟩

theorem dumpsDictRest_append_inj : ∀ (items others : List (String × Value)) {rest rest' : List Char},
    dumpsDictRest items ++ rest = dumpsDictRest others ++ rest' → items = others ∧ rest = rest'
  | [], others => by
    intro h
    cases others with
    | nil => exact ⟨rfl, (List.cons.inj h).2⟩
    | cons other others => exact absurd (List.cons.inj h).1 (by decide)
  | (key, value) :: items, others => by
    intro h
    cases others with
    | nil => exact absurd (List.cons.inj h).1 (by decide)
    | cons other others =>
      obtain ⟨otherKey, otherValue⟩ := other
      rw [dumpsDictRest, dumpsDictRest, List.cons_append, List.cons_append, List.append_assoc, List.append_assoc, List.cons_append,
        List.cons_append, List.append_assoc, List.append_assoc] at h
      have hitem := (List.cons.inj h).2
      obtain ⟨rfl, hvalue⟩ := dumpsStr_append_inj hitem
      obtain ⟨rfl, hitems⟩ := dumps_append_inj value otherValue (stops_dictRest items _) (stops_dictRest others _) (List.cons.inj hvalue).2
      obtain ⟨rfl, hbehind⟩ := dumpsDictRest_append_inj items others hitems
      exact ⟨rfl, hbehind⟩
end

theorem dumps_injective : Function.Injective dumps := by
  intro v w h
  have hstops : Stops [] := by
    intro c hc
    cases hc
  have happend : dumps v ++ [] = dumps w ++ [] := by rw [h]
  exact (dumps_append_inj v w hstops hstops happend).1

end OpenMinion.JsonTexts
