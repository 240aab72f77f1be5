import Mathlib.Data.Rat.Defs
import Mathlib.Data.List.Infix

/-!
# JSON values with Python's equality

The values that `json.loads` returns. Dictionaries are association lists; `pyEq` is
Python's `==`, which identifies `True`, `1` and `1.0` and ignores the order of keys.
-/
namespace OpenMinion.JsonValues

inductive Json where
  | null
  | bool (b : Bool)
  | int (n : ℤ)
  | float (q : ℚ)
  | nan
  | inf (negative : Bool)
  | str (s : String)
  | list (items : List Json)
  | dict (items : List (String × Json))

abbrev Dict := List (String × Json)

namespace Json

mutual
def same : Json → Json → Bool
  | .null, .null => true
  | .bool a, .bool b => a == b
  | .int a, .int b => a == b
  | .float a, .float b => a == b
  | .nan, .nan => true
  | .inf a, .inf b => a == b
  | .str a, .str b => a == b
  | .list xs, .list ys => sameList xs ys
  | .dict xs, .dict ys => sameItems xs ys
  | _, _ => false

def sameList : List Json → List Json → Bool
  | [], [] => true
  | x :: xs, y :: ys => same x y && sameList xs ys
  | _, _ => false

def sameItems : Dict → Dict → Bool
  | [], [] => true
  | (k, x) :: xs, (l, y) :: ys => k == l && same x y && sameItems xs ys
  | _, _ => false
end

mutual
private theorem same_iff : ∀ a b : Json, same a b = true ↔ a = b
  | .list xs, b => by cases b <;> simp [same, sameList_iff xs]
  | .dict xs, b => by cases b <;> simp [same, sameItems_iff xs]
  | .null, b | .bool _, b | .int _, b | .float _, b | .nan, b | .inf _, b | .str _, b => by
    cases b <;> simp [same]

private theorem sameList_iff : ∀ a b : List Json, sameList a b = true ↔ a = b
  | [], b => by cases b <;> simp [sameList]
  | x :: xs, b => by cases b <;> simp [sameList, same_iff x, sameList_iff xs]

private theorem sameItems_iff : ∀ a b : Dict, sameItems a b = true ↔ a = b
  | [], b => by cases b <;> simp [sameItems]
  | (k, x) :: xs, b => by
    cases b <;> simp [sameItems, same_iff x, sameItems_iff xs, Prod.ext_iff]
end

instance : DecidableEq Json := fun a b => decidable_of_iff _ (same_iff a b)

/-- `bool(value)`. -/
def truthy : Json → Bool
  | .null => false
  | .bool b => b
  | .int n => n != 0
  | .float q => q != 0
  | .nan | .inf _ => true
  | .str s => s != ""
  | .list xs => !xs.isEmpty
  | .dict xs => !xs.isEmpty

def number : Json → Option ℚ
  | .bool b => some (if b then 1 else 0)
  | .int n => some n
  | .float q => some q
  | _ => none

mutual
/-- Python's `==`. -/
def pyEq : Json → Json → Bool
  | .null, .null => true
  | .str a, .str b => a == b
  | .inf a, .inf b => a == b
  | .list xs, .list ys => pyEqList xs ys
  | .dict xs, .dict ys => xs.length == ys.length && pyEqItems xs ys
  | a, b => match number a, number b with
    | some p, some q => p == q
    | _, _ => false

def pyEqList : List Json → List Json → Bool
  | [], [] => true
  | x :: xs, y :: ys => pyEq x y && pyEqList xs ys
  | _, _ => false

def pyEqItems : Dict → Dict → Bool
  | [], _ => true
  | (k, v) :: items, other =>
    (match other.find? (·.1 == k) with
      | some item => pyEq v item.2
      | none => false) && pyEqItems items other
end

@[simp] theorem pyEq_str {a : Json} {s : String} : a.pyEq (.str s) = true ↔ a = .str s := by
  cases a <;> simp [pyEq, number]

@[simp] theorem pyEq_null {a : Json} : a.pyEq .null = true ↔ a = .null := by
  cases a <;> simp [pyEq, number]

theorem pyEqItems_iff {items other : Dict} :
    pyEqItems items other = true ↔ ∀ item ∈ items, ∃ found, other.find? (·.1 == item.1) = some found ∧ item.2.pyEq found.2 = true := by
  induction items with
  | nil => simp [pyEqItems]
  | cons item items ih =>
    rw [pyEqItems, Bool.and_eq_true, ih, List.forall_mem_cons]
    cases hfind : other.find? (·.1 == item.1) with
    | none => simp
    | some found => simp

end Json

namespace Dict

/-- `d.get(key)`, `None` when the key is missing. -/
def get (d : Dict) (key : String) : Json := ((d.find? (·.1 == key)).map (·.2)).getD .null

/-- `key in d`. -/
def has (d : Dict) (key : String) : Bool := d.any (·.1 == key)

/-- `d[key] = value`: an existing key keeps its place. -/
def set (d : Dict) (key : String) (value : Json) : Dict :=
  if has d key then d.map fun item => if item.1 == key then (key, value) else item
  else d ++ [(key, value)]

theorem get_cons (k key : String) (v : Json) (d : Dict) :
    get ((k, v) :: d) key = if k = key then v else get d key := by
  by_cases h : k = key <;> simp [get, h]

theorem set_cons_of_ne {k key : String} (h : k ≠ key) (v value : Json) (d : Dict) :
    set ((k, v) :: d) key value = (k, v) :: set d key value := by
  have hhas : has ((k, v) :: d) key = has d key := by simp [has, h]
  rw [set, set, hhas]
  split
  · rw [List.map_cons, if_neg (by simpa using h)]
  · rw [List.cons_append]

theorem get_replace_of_ne {key other : String} (h : key ≠ other) (d : Dict) (value : Json) :
    get (d.map fun item => if item.1 == key then (key, value) else item) other = get d other := by
  induction d with
  | nil => rfl
  | cons item d ih =>
    obtain ⟨k, v⟩ := item
    rw [List.map_cons, get_cons k]
    by_cases hk : k = key
    · rw [if_pos (beq_iff_eq.mpr hk), get_cons, if_neg h, ih, if_neg (hk ▸ h)]
    · rw [if_neg (by simpa using hk), get_cons, ih]

@[simp] theorem get_set_self (d : Dict) (key : String) (value : Json) : get (set d key value) key = value := by
  induction d with
  | nil => simp [set, has, get]
  | cons item d ih =>
    obtain ⟨k, v⟩ := item
    by_cases hk : k = key
    · simp [set, has, get, hk]
    · rw [set_cons_of_ne hk, get_cons, if_neg hk, ih]

@[simp] theorem get_set_of_ne {key other : String} (h : key ≠ other) (d : Dict) (value : Json) :
    get (set d key value) other = get d other := by
  rw [set]
  split
  · exact get_replace_of_ne h d value
  · simp [get, List.find?_append, h]

end Dict
end OpenMinion.JsonValues
