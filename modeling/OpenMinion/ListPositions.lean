import Mathlib.Data.List.Perm.Basic
import Mathlib.Data.List.Sort

/-!
# Positions in a list

`locate` finds the first item that meets a condition, with its position. What is found splits the list, and the edits
at its position are edits of that splitting.
-/
namespace OpenMinion.ListPositions

universe u
variable {α : Type u} {p : α → Bool} {xs : List α} {i : ℕ} {x : α}

def locate (p : α → Bool) : List α → Option (ℕ × α)
  | [] => none
  | x :: xs => if p x then some (0, x) else (locate p xs).map fun found => (found.1 + 1, found.2)

theorem locate_eq_some (h : locate p xs = some (i, x)) :
    ∃ front back, xs = front ++ x :: back ∧ front.length = i ∧ p x = true ∧ ∀ y ∈ front, p y = false := by
  induction xs generalizing i with
  | nil => cases h
  | cons y xs ih =>
    rw [locate] at h
    split at h
    · next hy =>
      cases h
      exact ⟨[], xs, rfl, rfl, hy, by simp⟩
    · next hy =>
      obtain ⟨⟨j, z⟩, hfound, hz⟩ := Option.map_eq_some_iff.mp h
      cases hz
      obtain ⟨front, back, rfl, hlen, hx, hfront⟩ := ih hfound
      refine ⟨y :: front, back, rfl, by simp [hlen], hx, ?_⟩
      intro w hw
      obtain rfl | hw := List.mem_cons.mp hw
      · simpa using hy
      · exact hfront w hw

theorem locate_append {front back : List α} (hfront : ∀ y ∈ front, p y = false) (hx : p x = true) :
    locate p (front ++ x :: back) = some (front.length, x) := by
  induction front with
  | nil => simp [locate, hx]
  | cons y front ih =>
    rw [List.cons_append, locate, hfront y List.mem_cons_self, if_neg Bool.false_ne_true,
      ih fun z hz => hfront z (List.mem_cons_of_mem y hz)]
    rfl

theorem locate_eq_none : locate p xs = none ↔ ∀ y ∈ xs, p y = false := by
  induction xs with
  | nil => simp [locate]
  | cons y xs ih =>
    rw [locate, List.forall_mem_cons, ← ih]
    cases p y with
    | true => simp
    | false => simp

theorem set_at {front back : List α} (y : α) (hi : front.length = i) :
    (front ++ x :: back).set i y = front ++ y :: back := by
  subst hi
  simp

theorem eraseIdx_at {front back : List α} (hi : front.length = i) :
    (front ++ x :: back).eraseIdx i = front ++ back := by
  subst hi
  simp [List.eraseIdx_append_of_length_le]

theorem countP_not_eq_zero (hxs : ∀ y ∈ xs, p y = true) : xs.countP (fun y => !p y) = 0 := by
  rw [List.countP_eq_zero]
  intro y hy
  simp [hxs y hy]

theorem filter_eq_drop (h : xs.Pairwise fun x y => p x = true → p y = true) :
    xs.filter p = xs.drop (xs.countP fun y => !p y) := by
  induction xs with
  | nil => rfl
  | cons x xs ih =>
    obtain ⟨hx, hxs⟩ := List.pairwise_cons.mp h
    by_cases hp : p x = true
    · have hall : ∀ y ∈ x :: xs, p y = true := List.forall_mem_cons.mpr ⟨hp, fun y hy => hx y hy hp⟩
      rw [countP_not_eq_zero hall, List.drop_zero, List.filter_eq_self.mpr hall]
    · rw [List.filter_cons_of_neg hp, List.countP_cons_of_pos (by simpa using hp), List.drop_succ_cons, ih hxs]

theorem countP_not_le_iff (h : xs.Pairwise fun x y => p x = true → p y = true) (hx : xs[i]? = some x) :
    xs.countP (fun y => !p y) ≤ i ↔ p x = true := by
  induction xs generalizing i with
  | nil => cases hx
  | cons y xs ih =>
    obtain ⟨hy, hxs⟩ := List.pairwise_cons.mp h
    by_cases hp : p y = true
    · have hall : ∀ z ∈ y :: xs, p z = true := List.forall_mem_cons.mpr ⟨hp, fun z hz => hy z hz hp⟩
      rw [countP_not_eq_zero hall]
      exact iff_of_true (Nat.zero_le i) (hall x (List.mem_of_getElem? hx))
    · rw [List.countP_cons_of_pos (by simpa using hp)]
      cases i with
      | zero =>
        cases hx
        exact iff_of_false (Nat.not_succ_le_zero _) hp
      | succ i => rw [Nat.succ_le_succ_iff, ih hxs hx]

theorem mem_drop_iff (h : xs.Nodup) (hx : xs[i]? = some x) (n : ℕ) : x ∈ xs.drop n ↔ n ≤ i := by
  rw [List.mem_iff_getElem?]
  constructor
  · rintro ⟨j, hj⟩
    rw [List.getElem?_drop] at hj
    have hij : n + j = i := by
      have hlt : n + j < xs.length := (List.getElem?_eq_some_iff.mp hj).1
      exact (List.getElem?_inj hlt h).mp (hj.trans hx.symm)
    omega
  · intro hle
    refine ⟨i - n, ?_⟩
    rw [List.getElem?_drop, Nat.add_sub_cancel' hle, hx]

theorem mem_last_drop_iff (h : xs.Pairwise fun x y => p x = true → p y = true) (hnodup : xs.Nodup) (hx : xs[i]? = some x)
    (n m : ℕ) : x ∈ ((xs.filter p).drop ((xs.filter p).length - n)).drop m ↔
      m ≤ i ∧ (∃ y, xs[i - m]? = some y ∧ p y = true) ∧ xs[i - m + n]? = none := by
  have hlt : i < xs.length := (List.getElem?_eq_some_iff.mp hx).1
  obtain ⟨y, hy⟩ : ∃ y, xs[i - m]? = some y := ⟨_, List.getElem?_eq_getElem (by omega)⟩
  have hpos := countP_not_le_iff h hy
  rw [filter_eq_drop h, List.drop_drop, List.drop_drop, mem_drop_iff hnodup hx, List.length_drop, List.getElem?_eq_none_iff]
  have hexists : (∃ z, xs[i - m]? = some z ∧ p z = true) ↔ p y = true := by
    rw [hy]
    simp
  rw [hexists, ← hpos]
  have hcount : xs.countP (fun z => !p z) ≤ xs.length := List.countP_le_length
  omega

/-- The first `n` items of a sorted list meet a condition on their keys, in terms of how many keys
are smaller than that of an item which does not. -/
theorem forall_take_iff_countP {κ : Type*} [LinearOrder κ] {key : α → κ} {good : α → Prop}
    (hkey : ∀ x y, key x = key y → (good x ↔ good y)) {xs : List α} (hsorted : xs.Pairwise fun x y => key x ≤ key y) {n : ℕ} :
    (∀ x ∈ xs.take n, good x) ↔ ∀ x ∈ xs, ¬ good x → n ≤ xs.countP fun y => key y < key x := by
  induction xs generalizing n with
  | nil => simp
  | cons a xs ih =>
    obtain ⟨hle, hsorted⟩ := List.pairwise_cons.mp hsorted
    cases n with
    | zero => simp
    | succ n =>
      have hnone : (a :: xs).countP (fun y => key y < key a) = 0 := by
        rw [List.countP_eq_zero]
        intro y hy
        rcases List.mem_cons.mp hy with rfl | hy
        · simp
        · simpa using hle y hy
      have hhead : good a ↔ (¬ good a → n + 1 ≤ (a :: xs).countP fun y => key y < key a) := by
        rw [hnone]
        simp
      rw [List.take_succ_cons, List.forall_mem_cons, List.forall_mem_cons, ih hsorted, ← hhead]
      refine and_congr_right fun ha => forall₂_congr fun x hx => imp_congr_right fun hbad => ?_
      have hlt : key a < key x := lt_of_le_of_ne (hle x hx) fun heq => hbad ((hkey a x heq).mp ha)
      rw [List.countP_cons_of_pos (by simpa using hlt), Nat.add_le_add_iff_right]

section
variable {r : α → α → Prop} [DecidableRel r]

theorem head?_orderedInsert (a : α) (xs : List α) :
    (xs.orderedInsert r a).head? = some (match xs.head? with
      | none => a
      | some y => if r a y then a else y) := by
  cases xs with
  | nil => rfl
  | cons y xs =>
    by_cases hay : r a y
    · simp [List.orderedInsert, hay]
    · simp [List.orderedInsert, hay]

theorem head?_insertionSort_append (htotal : ∀ a b, r a b ∨ r b a) (htrans : ∀ a b c, r a b → r b c → r a c) (xs : List α) (x : α) :
    ((xs ++ [x]).insertionSort r).head? = some (match (xs.insertionSort r).head? with
      | none => x
      | some y => if r y x then y else x) := by
  induction xs with
  | nil => rfl
  | cons a xs ih =>
    have hcons : ∀ ys : List α, ((a :: ys).insertionSort r).head? = ((ys.insertionSort r).orderedInsert r a).head? := fun _ => rfl
    rw [List.cons_append, hcons, hcons, head?_orderedInsert, head?_orderedInsert, ih]
    cases (xs.insertionSort r).head? with
    | none => rfl
    | some y =>
      by_cases hay : r a y
      · by_cases hyx : r y x
        · simp [hay, hyx, htrans a y x hay hyx]
        · simp [hay, hyx]
      · by_cases hyx : r y x
        · simp [hay, hyx]
        · have hax : ¬ r a x := fun hax => hay (htrans a x y hax ((htotal y x).resolve_left hyx))
          simp [hay, hyx, hax]

theorem orderedInsert_concat {y x : α} (hyx : r y x) (xs : List α) :
    (xs ++ [x]).orderedInsert r y = xs.orderedInsert r y ++ [x] := by
  induction xs with
  | nil => simp [List.orderedInsert, hyx]
  | cons a xs ih =>
    rw [List.cons_append, List.orderedInsert, List.orderedInsert]
    split
    · rfl
    · rw [ih, List.cons_append]

theorem insertionSort_concat {xs : List α} {x : α} (h : ∀ y ∈ xs, r y x) :
    (xs ++ [x]).insertionSort r = xs.insertionSort r ++ [x] := by
  induction xs with
  | nil => rfl
  | cons y xs ih =>
    have hcons : ∀ ys : List α, (y :: ys).insertionSort r = (ys.insertionSort r).orderedInsert r y := fun _ => rfl
    rw [List.cons_append, hcons, hcons, ih fun z hz => h z (List.mem_cons_of_mem y hz), orderedInsert_concat (h y List.mem_cons_self)]

end

end OpenMinion.ListPositions
