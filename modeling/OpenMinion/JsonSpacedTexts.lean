import OpenMinion.JsonRows

/-!
# JSON texts with spaces

The text that `json.dumps` writes with its default separators. Without the spaces outside of strings it is the compact
text, so that values of one text are equal.
-/
namespace OpenMinion.JsonSpacedTexts
open DecimalTexts JsonRows JsonTexts JsonValues

mutual
def spaced : Value → List Char
  | .str s => dumpsStr s
  | .number n => n.text
  | .list items => '[' :: spacedList items
  | .dict items => '{' :: spacedDict items

def spacedList : List Value → List Char
  | [] => [']']
  | item :: items => spaced item ++ spacedListRest items

def spacedListRest : List Value → List Char
  | [] => [']']
  | item :: items => ',' :: ' ' :: (spaced item ++ spacedListRest items)

def spacedDict : List (String × Value) → List Char
  | [] => ['}']
  | (key, value) :: items => dumpsStr key ++ ':' :: ' ' :: (spaced value ++ spacedDictRest items)

def spacedDictRest : List (String × Value) → List Char
  | [] => ['}']
  | (key, value) :: items => ',' :: ' ' :: (dumpsStr key ++ ':' :: ' ' :: (spaced value ++ spacedDictRest items))
end

def compact : Bool → List Char → List Char
  | _, [] => []
  | true, c :: cs =>
    if c = '"' then c :: compact false cs
    else if c = '\\' then
      match cs with
      | [] => [c]
      | d :: ds => c :: d :: compact true ds
    else c :: compact true cs
  | false, c :: cs => if c = ' ' then compact false cs else c :: compact (c = '"') cs

theorem compact_space (cs : List Char) : compact false (' ' :: cs) = compact false cs := rfl

theorem compact_outside {c : Char} (hspace : c ≠ ' ') (hquote : c ≠ '"') (cs : List Char) :
    compact false (c :: cs) = c :: compact false cs := by
  rw [compact, if_neg hspace, decide_eq_false hquote]

theorem compact_inside {c : Char} (hquote : c ≠ '"') (hescape : c ≠ '\\') (cs : List Char) :
    compact true (c :: cs) = c :: compact true cs := by
  rw [compact.eq_def]
  simp only [if_neg hquote, if_neg hescape]

theorem compact_closing (cs : List Char) : compact true ('"' :: cs) = '"' :: compact false cs := by
  rw [compact.eq_def]
  simp only [if_pos]

theorem compact_escaped (c : Char) (cs : List Char) : compact true ('\\' :: c :: cs) = '\\' :: c :: compact true cs := rfl

theorem compact_number {text : List Char} (h : text.all isNumberChar = true) (rest : List Char) :
    compact false (text ++ rest) = text ++ compact false rest := by
  induction text with
  | nil => rfl
  | cons c text ih =>
    rw [List.all_cons, Bool.and_eq_true] at h
    have hspace : c ≠ ' ' := by
      rintro rfl
      exact absurd h.1 (by decide)
    have hquote : c ≠ '"' := by
      rintro rfl
      exact absurd h.1 (by decide)
    rw [List.cons_append, compact_outside hspace hquote, ih h.2, List.cons_append]

theorem digitChar_plain : ∀ n < 16, Nat.digitChar n ≠ '"' ∧ Nat.digitChar n ≠ '\\' := by decide

theorem compact_escapeUnit (n : ℕ) (rest : List Char) :
    compact true (escapeUnit n ++ rest) = escapeUnit n ++ compact true rest := by
  have hdigit (m : ℕ) (cs : List Char) : compact true (Nat.digitChar (m % 16) :: cs) = Nat.digitChar (m % 16) :: compact true cs :=
    have hplain := digitChar_plain (m % 16) (Nat.mod_lt m (by decide))
    compact_inside hplain.1 hplain.2 cs
  simp only [escapeUnit, hex4, List.cons_append, List.nil_append, compact_escaped, hdigit]

theorem compact_escapeChar (c : Char) (rest : List Char) :
    compact true (escapeChar c ++ rest) = escapeChar c ++ compact true rest := by
  rw [escapeChar]
  split
  · rfl
  split
  · rfl
  split
  · rfl
  split
  · rfl
  split
  · rfl
  split
  · rfl
  split
  · rfl
  split
  · next hquote hescape _ _ _ _ _ _ => exact compact_inside hquote hescape rest
  split
  · exact compact_escapeUnit c.toNat rest
  · rw [List.append_assoc, compact_escapeUnit, compact_escapeUnit, List.append_assoc]

theorem compact_escape (cs rest : List Char) :
    compact true (escape cs ++ '"' :: rest) = escape cs ++ '"' :: compact false rest := by
  induction cs with
  | nil => exact compact_closing rest
  | cons c cs ih => rw [escape, List.flatMap_cons, List.append_assoc, compact_escapeChar, List.append_assoc, ← escape, ih]

theorem compact_dumpsStr (s : String) (rest : List Char) :
    compact false (dumpsStr s ++ rest) = dumpsStr s ++ compact false rest := by
  have hquote : compact false ('"' :: (escape s.toList ++ '"' :: rest)) = '"' :: compact true (escape s.toList ++ '"' :: rest) := rfl
  rw [dumpsStr_append, hquote, compact_escape, dumpsStr_append]

mutual
theorem compact_spaced : ∀ (v : Value) (rest : List Char), compact false (spaced v ++ rest) = dumps v ++ compact false rest
  | .str s, rest => compact_dumpsStr s rest
  | .number n, rest => compact_number n.chars rest
  | .list items, rest => by
    rw [spaced, dumps, List.cons_append, compact_outside (by decide) (by decide), compact_spacedList items, List.cons_append]
  | .dict items, rest => by
    rw [spaced, dumps, List.cons_append, compact_outside (by decide) (by decide), compact_spacedDict items, List.cons_append]

theorem compact_spacedList : ∀ (items : List Value) (rest : List Char),
    compact false (spacedList items ++ rest) = dumpsList items ++ compact false rest
  | [], rest => compact_outside (by decide) (by decide) rest
  | item :: items, rest => by
    rw [spacedList, dumpsList, List.append_assoc, compact_spaced item, compact_spacedListRest items, List.append_assoc]

theorem compact_spacedListRest : ∀ (items : List Value) (rest : List Char),
    compact false (spacedListRest items ++ rest) = dumpsListRest items ++ compact false rest
  | [], rest => compact_outside (by decide) (by decide) rest
  | item :: items, rest => by
    rw [spacedListRest, dumpsListRest, List.cons_append, List.cons_append, List.append_assoc, compact_outside (by decide) (by decide),
      compact_space, compact_spaced item, compact_spacedListRest items, List.cons_append, List.append_assoc]

theorem compact_spacedDict : ∀ (items : List (String × Value)) (rest : List Char),
    compact false (spacedDict items ++ rest) = dumpsDict items ++ compact false rest
  | [], rest => compact_outside (by decide) (by decide) rest
  | (key, value) :: items, rest => by
    rw [spacedDict, dumpsDict, List.append_assoc, List.cons_append, List.cons_append, List.append_assoc, compact_dumpsStr,
      compact_outside (by decide) (by decide), compact_space, compact_spaced value, compact_spacedDictRest items, List.append_assoc,
      List.cons_append, List.append_assoc]

theorem compact_spacedDictRest : ∀ (items : List (String × Value)) (rest : List Char),
    compact false (spacedDictRest items ++ rest) = dumpsDictRest items ++ compact false rest
  | [], rest => compact_outside (by decide) (by decide) rest
  | (key, value) :: items, rest => by
    rw [spacedDictRest, dumpsDictRest, List.cons_append, List.cons_append, List.append_assoc, List.cons_append, List.cons_append,
      List.append_assoc, compact_outside (by decide) (by decide), compact_space, compact_dumpsStr,
      compact_outside (by decide) (by decide), compact_space, compact_spaced value, compact_spacedDictRest items, List.cons_append,
      List.append_assoc, List.cons_append, List.append_assoc]
end

theorem spaced_injective : Function.Injective spaced := by
  intro v w h
  have hcompact := congrArg (compact false) (congrArg (· ++ []) h)
  rw [compact_spaced, compact_spaced] at hcompact
  exact dumps_injective (List.append_cancel_right hcompact)

/-- `null`, `true` and `false` are written like numbers. -/
def word (text : List Char) (hnonempty : text ≠ []) (hchars : text.all isNumberChar = true) : Value := .number ⟨text, hnonempty, hchars⟩

def intValue (n : ℤ) : Value := .number
  { text := intText n
    nonempty := fun h => Nat.toDigits_ne_nil (List.append_eq_nil_iff.mp h).2
    chars := isNumberChar_intText n }

mutual
/-- The value that is written for a JSON value with `sort_keys`. -/
def sortedValue : Json → Value
  | .null => word "null".toList (by decide +kernel) (by decide +kernel)
  | .bool true => word "true".toList (by decide +kernel) (by decide +kernel)
  | .bool false => word "false".toList (by decide +kernel) (by decide +kernel)
  | .int n => intValue n
  | .float q => .number (.ofNumber (.finite (Decimal.ofRat q)))
  | .nan => .number (.ofNumber .nan)
  | .inf negative => .number (.ofNumber (.inf negative))
  | .str s => .str s
  | .list items => .list (sortedList items)
  | .dict items => .dict (sortKeys (sortedItems items))

def sortedList : List Json → List Value
  | [] => []
  | item :: items => sortedValue item :: sortedList items

def sortedItems : Dict → List (String × Value)
  | [] => []
  | (key, value) :: items => (key, sortedValue value) :: sortedItems items
end

theorem sortedList_eq_map (items : List Json) : sortedList items = items.map sortedValue := by
  induction items with
  | nil => rfl
  | cons item items ih => rw [sortedList, ih, List.map_cons]

theorem sortedItems_eq_map (items : Dict) : sortedItems items = items.map fun item => (item.1, sortedValue item.2) := by
  induction items with
  | nil => rfl
  | cons item items ih => rw [sortedItems, ih, List.map_cons]

theorem mem_of_sortedValue_eq {items others : Dict} (h : sortedValue (.dict items) = sortedValue (.dict others)) {key : String}
    {value : Json} (hmem : (key, value) ∈ items) : ∃ other, (key, other) ∈ others ∧ sortedValue value = sortedValue other := by
  rw [sortedValue, sortedValue, Value.dict.injEq, sortedItems_eq_map, sortedItems_eq_map] at h
  have hsorted : (key, sortedValue value) ∈ sortKeys (items.map fun item => (item.1, sortedValue item.2)) :=
    (List.perm_insertionSort _ _).mem_iff.mpr (List.mem_map.mpr ⟨(key, value), hmem, rfl⟩)
  rw [h] at hsorted
  obtain ⟨other, hother, heq⟩ := List.mem_map.mp ((List.perm_insertionSort _ _).mem_iff.mp hsorted)
  obtain ⟨rfl, hvalue⟩ := Prod.mk.inj heq
  exact ⟨other.2, hother, hvalue.symm⟩

end OpenMinion.JsonSpacedTexts
