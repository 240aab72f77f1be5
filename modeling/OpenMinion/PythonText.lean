import Mathlib.Data.List.DropRight

/-!
# Python text helpers

`str.strip` without arguments removes the characters for which `str.isspace` holds
from both ends of a string.
-/
namespace OpenMinion.PythonText

/-- The characters with `str.isspace`. -/
def isSpace (c : Char) : Bool :=
  let n := c.toNat
  (9 ≤ n && n ≤ 13) || (28 ≤ n && n ≤ 32) || n == 0x85 || n == 0xa0 || n == 0x1680 ||
    (0x2000 ≤ n && n ≤ 0x200a) || n == 0x2028 || n == 0x2029 || n == 0x202f ||
    n == 0x205f || n == 0x3000

def stripChars (cs : List Char) : List Char := (cs.dropWhile isSpace).rdropWhile isSpace

/-- `str.strip()`. -/
def strip (s : String) : String := String.ofList (stripChars s.toList)

/-- `str(value or "").strip()` for an optional string. -/
def stripOr (s : Option String) : String := strip (s.getD "")

/-- `str(value or "").strip() or None`. -/
def stripOrNone (s : Option String) : Option String :=
  if stripOr s = "" then none else some (stripOr s)

theorem stripChars_eq_self {cs : List Char} (hhead : ∀ c ∈ cs.head?, isSpace c = false)
    (hlast : ∀ c ∈ cs.getLast?, isSpace c = false) : stripChars cs = cs := by
  have hl : cs.dropWhile isSpace = cs := by
    cases cs with
    | nil => rfl
    | cons c cs => simp [hhead c (by simp)]
  rw [stripChars, hl, List.rdropWhile_eq_self_iff]
  intro hne
  simp [hlast _ (List.getLast?_eq_some_getLast hne)]

theorem head?_stripChars (cs : List Char) :
    ∀ c ∈ (stripChars cs).head?, isSpace c = false := by
  intro c hc
  obtain ⟨t, ht⟩ := List.rdropWhile_prefix isSpace (cs.dropWhile isSpace)
  have hmem : c ∈ (cs.dropWhile isSpace).head? := by
    rw [← ht]
    exact List.mem_head?_append_of_mem_head? hc
  have h := List.head?_dropWhile_not isSpace cs
  rw [Option.mem_def.mp hmem] at h
  exact h

private theorem getLast?_stripChars (cs : List Char) :
    ∀ c ∈ (stripChars cs).getLast?, isSpace c = false := by
  intro c hc
  have hne : stripChars cs ≠ [] := by
    rintro h
    simp [h] at hc
  have hlast : (stripChars cs).getLast hne = c := by
    simpa [List.getLast?_eq_some_getLast hne] using hc
  have h : ¬isSpace ((stripChars cs).getLast hne) :=
    List.rdropWhile_last_not isSpace (cs.dropWhile isSpace) hne
  simpa [hlast] using h

theorem strip_strip (s : String) : strip (strip s) = strip s := by
  simp only [strip, String.toList_ofList]
  rw [stripChars_eq_self (head?_stripChars _) (getLast?_stripChars _)]

theorem strip_stripOr (value : Option String) : strip (stripOr value) = stripOr value := strip_strip _

theorem stripOrNone_eq_some {value : Option String} {text : String} (h : stripOrNone value = some text) :
    strip text = text ∧ text ≠ "" := by
  rw [stripOrNone] at h
  split at h
  · cases h
  · next hne =>
    cases h
    exact ⟨strip_stripOr value, hne⟩

end OpenMinion.PythonText
