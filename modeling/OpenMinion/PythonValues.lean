import OpenMinion.JsonRows

/-!
# Python values and what JSON keeps of them

A tuple comes back from `json.dumps` and `json.loads` as a list, and every key as a string. A value is equal to what is
read back exactly when it has neither and no NaN but the one that `json.loads` returns.
-/
namespace OpenMinion.PythonValues
open DecimalTexts JsonRows JsonValues

inductive PyKey where
  | none
  | bool (b : Bool)
  | int (n : ℤ)
  | float (q : ℚ)
  | nan
  | inf (negative : Bool)
  | str (s : String)
  deriving DecidableEq

inductive PyValue where
  | none
  | bool (b : Bool)
  | int (n : ℤ)
  | float (q : ℚ)
  /-- The object that `json.loads` returns for `NaN`, or another one. -/
  | nan (decoded : Bool)
  | inf (negative : Bool)
  | str (s : String)
  | list (items : List PyValue)
  | tuple (items : List PyValue)
  | dict (items : List (PyKey × PyValue))

abbrev PyItems := List (PyKey × PyValue)

namespace PyKey

def isStr : PyKey → Bool
  | .str _ => true
  | _ => false

def text : PyKey → String
  | .none => "null"
  | .bool b => if b then "true" else "false"
  | .int n => String.ofList (intText n)
  | .float q => String.ofList (DecimalTexts.repr (.finite (Decimal.ofRat q)))
  | .nan => "NaN"
  | .inf negative => if negative then "-Infinity" else "Infinity"
  | .str s => s

def number : PyKey → Option ℚ
  | .bool b => some (if b then 1 else 0)
  | .int n => some n
  | .float q => some q
  | _ => Option.none

def sortable (keys : List PyKey) : Bool :=
  keys.length ≤ 1 || keys.all isStr || keys.all fun key => key.number.isSome || key = .nan || key = .inf true || key = .inf false

/-- The order of `sort_keys`. -/
def le : PyKey → PyKey → Bool
  | .str a, .str b => a ≤ b
  | .inf true, _ => true
  | _, .inf false => true
  | a, b => match a.number, b.number with
    | some p, some q => p ≤ q
    | _, _ => false

end PyKey

mutual
/-- `json.dumps` with `sort_keys` accepts the value. -/
def dumpable : PyValue → Bool
  | .list items => dumpableList items
  | .tuple items => dumpableList items
  | .dict items => PyKey.sortable (items.map (·.1)) && dumpableItems items
  | _ => true

def dumpableList : List PyValue → Bool
  | [] => true
  | item :: items => dumpable item && dumpableList items

def dumpableItems : PyItems → Bool
  | [] => true
  | (_, item) :: items => dumpable item && dumpableItems items
end

def loadItems (items : List (PyKey × Json)) : Dict :=
  ((items.insertionSort fun a b => a.1.le b.1).map fun item => (item.1.text, item.2)).foldl
    (fun row item => Dict.set row item.1 item.2) []

mutual
/-- `json.loads(json.dumps(value, sort_keys=True))`. -/
def readBack : PyValue → Json
  | .none => .null
  | .bool b => .bool b
  | .int n => .int n
  | .float q => .float q
  | .nan _ => .nan
  | .inf negative => .inf negative
  | .str s => .str s
  | .list items => .list (readBackList items)
  | .tuple items => .list (readBackList items)
  | .dict items => .dict (loadItems (readBackItems items))

def readBackList : List PyValue → List Json
  | [] => []
  | item :: items => readBack item :: readBackList items

def readBackItems : PyItems → List (PyKey × Json)
  | [] => []
  | (key, item) :: items => (key, readBack item) :: readBackItems items
end

def PyValue.number : PyValue → Option ℚ
  | .bool b => some (if b then 1 else 0)
  | .int n => some n
  | .float q => some q
  | _ => Option.none

mutual
/-- Python's `==` between a value that was read and one in memory. -/
def sameAs : Json → PyValue → Bool
  | .null, .none => true
  | .str a, .str b => a == b
  | .inf a, .inf b => a == b
  -- inside of a container, an object is equal to itself
  | .nan, .nan decoded => decoded
  | .list xs, .list ys => sameList xs ys
  | .dict xs, .dict ys => xs.length == ys.length && sameItems xs ys
  | a, b => match a.number, b.number with
    | some p, some q => p == q
    | _, _ => false

def sameList : List Json → List PyValue → Bool
  | [], [] => true
  | x :: xs, y :: ys => sameAs x y && sameList xs ys
  | _, _ => false

def sameItems : Dict → PyItems → Bool
  | [], _ => true
  | (key, v) :: items, other =>
    (match other.find? (·.1 == .str key) with
      | some item => sameAs v item.2
      | none => false) && sameItems items other
end

mutual
def faithful : PyValue → Bool
  | .nan decoded => decoded
  | .tuple _ => false
  | .list items => faithfulList items
  | .dict items => faithfulItems items
  | _ => true

def faithfulList : List PyValue → Bool
  | [] => true
  | item :: items => faithful item && faithfulList items

def faithfulItems : PyItems → Bool
  | [] => true
  | (key, item) :: items => (key.isStr && faithful item) && faithfulItems items
end

mutual
def WellFormed : PyValue → Prop
  | .list items => WellFormedList items
  | .tuple items => WellFormedList items
  | .dict items => (items.map (·.1)).Nodup ∧ WellFormedItems items
  | _ => True

def WellFormedList : List PyValue → Prop
  | [] => True
  | item :: items => WellFormed item ∧ WellFormedList items

def WellFormedItems : PyItems → Prop
  | [] => True
  | (_, item) :: items => WellFormed item ∧ WellFormedItems items
end

theorem sameItems_iff {items : Dict} {other : PyItems} : sameItems items other = true ↔
    ∀ item ∈ items, ∃ found, other.find? (·.1 == .str item.1) = some found ∧ sameAs item.2 found.2 = true := by
  induction items with
  | nil => simp [sameItems]
  | cons item items ih =>
    rw [sameItems, Bool.and_eq_true, ih, List.forall_mem_cons]
    cases hfind : other.find? (·.1 == .str item.1) with
    | none => simp
    | some found => simp

theorem readBackItems_eq_map (items : PyItems) : readBackItems items = items.map fun item => (item.1, readBack item.2) := by
  induction items with
  | nil => rfl
  | cons item items ih => rw [readBackItems, ih, List.map_cons]

theorem faithfulItems_iff {items : PyItems} :
    faithfulItems items = true ↔ ∀ item ∈ items, item.1.isStr = true ∧ faithful item.2 = true := by
  induction items with
  | nil => simp [faithfulItems]
  | cons item items ih => rw [faithfulItems, Bool.and_eq_true, Bool.and_eq_true, ih, List.forall_mem_cons]

theorem nodup_keys_set {row : Dict} (h : (row.map (·.1)).Nodup) (key : String) (value : Json) :
    ((Dict.set row key value).map (·.1)).Nodup := by
  rw [Dict.set]
  split
  · rw [List.map_map]
    have hkeys : ((·.1) ∘ fun item : String × Json => if item.1 == key then (key, value) else item) = (·.1) := by
      funext item
      by_cases hkey : item.1 = key
      · simp [hkey]
      · simp [hkey]
    rwa [hkeys]
  · next hnew =>
    rw [List.map_append, List.nodup_append]
    refine ⟨h, List.nodup_singleton _, ?_⟩
    rintro other hother k hk rfl
    obtain ⟨item, hitem, rfl⟩ := List.mem_map.mp hother
    obtain rfl : item.1 = key := by simpa using hk
    exact hnew (List.any_eq_true.mpr ⟨item, hitem, beq_self_eq_true _⟩)

theorem nodup_keys_loadItems (items : List (PyKey × Json)) : ((loadItems items).map (·.1)).Nodup := by
  rw [loadItems]
  refine List.foldlRecOn (motive := fun row : Dict => (row.map (·.1)).Nodup) _ _ ?_ fun _ h _ _ => nodup_keys_set h _ _
  exact List.nodup_nil

theorem exists_str_of_isStr {key : PyKey} (h : key.isStr = true) : ∃ s, key = .str s := by
  cases key with
  | str s => exact ⟨s, rfl⟩
  | _ => cases h

theorem loadItems_perm (items : List (PyKey × Json)) (hkeys : ∀ item ∈ items, item.1.isStr = true)
    (hnodup : (items.map (·.1)).Nodup) : (loadItems items).Perm (items.map fun item => (item.1.text, item.2)) := by
  have hsorted := List.perm_insertionSort (fun a b : PyKey × Json => a.1.le b.1) items
  have htexts : ((items.map fun item => (item.1.text, item.2)).map (·.1)).Nodup := by
    rw [List.map_map]
    have hmap : items.map ((·.1) ∘ fun item : PyKey × Json => (item.1.text, item.2)) = (items.map (·.1)).map PyKey.text := by
      rw [List.map_map]
      rfl
    rw [hmap]
    refine hnodup.map_on fun key hkey other hother heq => ?_
    obtain ⟨item, hitem, rfl⟩ := List.mem_map.mp hkey
    obtain ⟨item', hitem', rfl⟩ := List.mem_map.mp hother
    obtain ⟨s, hs⟩ := exists_str_of_isStr (hkeys item hitem)
    obtain ⟨t, ht⟩ := exists_str_of_isStr (hkeys item' hitem')
    rw [hs, ht] at heq ⊢
    exact congrArg PyKey.str heq
  have hperm := hsorted.map fun item => (item.1.text, item.2)
  rw [loadItems, foldl_set ((hperm.map (·.1)).nodup_iff.mpr htexts)]
  exact hperm

theorem not_same_of_key {items : PyItems} {read : Dict} (hread : (read.map (·.1)).Nodup)
    (hkey : ∃ item ∈ items, item.1.isStr = false) : (read.length == items.length && sameItems read items) = false := by
  rw [← Bool.not_eq_true, Bool.and_eq_true, beq_iff_eq, sameItems_iff]
  rintro ⟨hlength, hfound⟩
  have hnodup : (read.map fun item => PyKey.str item.1).Nodup := by
    have hmap : (read.map fun item => PyKey.str item.1) = (read.map (·.1)).map PyKey.str := by
      rw [List.map_map]
      rfl
    rw [hmap]
    exact hread.map fun _ _ heq => PyKey.str.inj heq
  have hsubset : (read.map fun item => PyKey.str item.1) ⊆ (items.map (·.1)).filter PyKey.isStr := by
    intro key hmem
    obtain ⟨item, hitem, rfl⟩ := List.mem_map.mp hmem
    obtain ⟨found, hfind, -⟩ := hfound item hitem
    refine List.mem_filter.mpr ⟨List.mem_map.mpr ⟨found, List.mem_of_find?_eq_some hfind, ?_⟩, rfl⟩
    simpa using List.find?_some hfind
  have hle := (hnodup.subperm hsubset).length_le
  have hlt : ((items.map (·.1)).filter PyKey.isStr).length < (items.map (·.1)).length := by
    obtain ⟨item, hitem, hnot⟩ := hkey
    exact List.length_filter_lt_length_iff_exists.mpr ⟨item.1, List.mem_map_of_mem hitem, by simp [hnot]⟩
  rw [List.length_map] at hle hlt
  omega

theorem find?_own_key {items : PyItems} (h : (items.map (·.1)).Nodup) {item : PyKey × PyValue} (hitem : item ∈ items) :
    items.find? (·.1 == item.1) = some item := by
  induction items with
  | nil => cases hitem
  | cons first items ih =>
    rw [List.map_cons, List.nodup_cons] at h
    rcases List.mem_cons.mp hitem with rfl | hrest
    · exact List.find?_cons_of_pos (beq_self_eq_true _)
    · have hne : first.1 ≠ item.1 := fun heq => h.1 (heq ▸ List.mem_map_of_mem hrest)
      rw [List.find?_cons_of_neg (by simpa using hne)]
      exact ih h.2 hrest

theorem same_of_strs {items : PyItems} (hnodup : (items.map (·.1)).Nodup) (hkeys : ∀ item ∈ items, item.1.isStr = true)
    (hvalues : ∀ item ∈ items, sameAs (readBack item.2) item.2 = faithful item.2) :
    ((loadItems (readBackItems items)).length == items.length && sameItems (loadItems (readBackItems items)) items) =
      faithfulItems items := by
  rw [readBackItems_eq_map]
  have hstrs : ∀ item ∈ items.map (fun item => (item.1, readBack item.2)), item.1.isStr = true :=
    List.forall_mem_map.mpr hkeys
  have hperm := loadItems_perm (items.map fun item => (item.1, readBack item.2)) hstrs (by rwa [List.map_map])
  have hlength := hperm.length_eq
  rw [List.length_map, List.length_map] at hlength
  rw [hlength, beq_self_eq_true, Bool.true_and, Bool.eq_iff_iff, sameItems_iff, faithfulItems_iff]
  have hmem : ∀ key read, (key, read) ∈ loadItems (items.map fun item => (item.1, readBack item.2)) ↔
      ∃ value, (PyKey.str key, value) ∈ items ∧ readBack value = read := by
    intro key read
    rw [hperm.mem_iff, List.map_map, List.mem_map]
    constructor
    · rintro ⟨item, hitem, heq⟩
      obtain ⟨s, hs⟩ := exists_str_of_isStr (hkeys item hitem)
      obtain ⟨htext, hvalue⟩ := Prod.mk.inj heq
      refine ⟨item.2, ?_, hvalue⟩
      have hkey : item.1 = .str key := by
        rw [hs] at htext ⊢
        exact congrArg PyKey.str htext
      rwa [← hkey]
    · rintro ⟨value, hitem, rfl⟩
      exact ⟨_, hitem, rfl⟩
  constructor
  · intro h item hitem
    refine ⟨hkeys item hitem, ?_⟩
    obtain ⟨s, hs⟩ := exists_str_of_isStr (hkeys item hitem)
    obtain ⟨found, hfind, hsame⟩ := h (s, readBack item.2) ((hmem s _).mpr ⟨item.2, by rwa [← hs], rfl⟩)
    rw [← hs, find?_own_key hnodup hitem] at hfind
    obtain rfl := Option.some.inj hfind
    rwa [hvalues item hitem] at hsame
  · rintro h ⟨key, read⟩ hread
    obtain ⟨value, hitem, rfl⟩ := (hmem key read).mp hread
    exact ⟨(.str key, value), find?_own_key hnodup hitem, (hvalues _ hitem).trans (h _ hitem).2⟩

mutual
theorem sameAs_readBack : ∀ v, WellFormed v → sameAs (readBack v) v = faithful v
  | .none, _ => rfl
  | .bool b, _ => by simp [readBack, sameAs, faithful, Json.number, PyValue.number]
  | .int n, _ => by simp [readBack, sameAs, faithful, Json.number, PyValue.number]
  | .float q, _ => by simp [readBack, sameAs, faithful, Json.number, PyValue.number]
  | .nan decoded, _ => by simp [readBack, sameAs, faithful]
  | .inf negative, _ => by simp [readBack, sameAs, faithful]
  | .str s, _ => by simp [readBack, sameAs, faithful]
  | .list items, h => by
    rw [readBack, sameAs, faithful]
    exact sameList_readBackList items h
  | .tuple items, _ => by simp [readBack, sameAs, faithful, Json.number]
  | .dict items, ⟨hnodup, hitems⟩ => by
    have hvalues := sameAs_readBackItems items hitems
    rw [readBack, sameAs, faithful]
    by_cases hkeys : ∀ item ∈ items, item.1.isStr = true
    · exact same_of_strs hnodup hkeys hvalues
    · simp only [not_forall, Bool.not_eq_true, exists_prop] at hkeys
      rw [not_same_of_key (nodup_keys_loadItems _) hkeys]
      obtain ⟨item, hitem, hnot⟩ := hkeys
      refine Eq.symm (Bool.eq_false_iff.mpr fun hall => ?_)
      have hstr := (faithfulItems_iff.mp hall item hitem).1
      rw [hnot] at hstr
      cases hstr

theorem sameList_readBackList : ∀ items, WellFormedList items → sameList (readBackList items) items = faithfulList items
  | [], _ => rfl
  | item :: items, ⟨hitem, hitems⟩ => by
    rw [readBackList, sameList, faithfulList, sameAs_readBack item hitem, sameList_readBackList items hitems]

theorem sameAs_readBackItems : ∀ items : PyItems, WellFormedItems items →
    ∀ item ∈ items, sameAs (readBack item.2) item.2 = faithful item.2
  | [], _ => fun _ h => nomatch h
  | (key, value) :: items, ⟨hvalue, hitems⟩ => by
    intro item hmem
    rcases List.mem_cons.mp hmem with rfl | hrest
    · exact sameAs_readBack value hvalue
    · exact sameAs_readBackItems items hitems item hrest
end

end OpenMinion.PythonValues
