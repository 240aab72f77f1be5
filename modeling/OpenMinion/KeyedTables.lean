import Mathlib.Data.List.Find
import Mathlib.Data.List.Nodup

/-!
# Tables with a key

A table is the list of its rows in insertion order. `updateWhere`, `deleteWhere` and `upsertRow` are the SQL statements
of these names and `lookup` selects a row by its key.
-/
namespace OpenMinion.KeyedTables

universe u v
variable {Row : Type u} {Key : Type v}

/-- `UPDATE t SET .. WHERE p`. -/
def updateWhere (p : Row → Bool) (f : Row → Row) (t : List Row) : List Row :=
  t.map fun r => if p r then f r else r

/-- `DELETE FROM t WHERE p`. -/
def deleteWhere (p : Row → Bool) (t : List Row) : List Row := t.filter fun r => !p r

/-- `SELECT * FROM t WHERE key = k`. -/
def lookup [DecidableEq Key] (key : Row → Key) (k : Key) (t : List Row) : Option Row :=
  t.find? fun r => key r = k

/-- `INSERT .. ON CONFLICT(key) DO UPDATE` of a row that replaces all other columns. -/
def upsertRow [DecidableEq Key] (key : Row → Key) (row : Row) (t : List Row) : List Row :=
  if t.any fun r => key r = key row then updateWhere (fun r => key r = key row) (fun _ => row) t
  else t ++ [row]

def UniqueKey (key : Row → Key) (t : List Row) : Prop := (t.map key).Nodup

variable {key : Row → Key} {p : Row → Bool} {f : Row → Row} {t : List Row}

theorem mem_updateWhere {r : Row} :
    r ∈ updateWhere p f t ↔ ∃ s ∈ t, (if p s then f s else s) = r := List.mem_map

@[simp] theorem mem_deleteWhere {r : Row} : r ∈ deleteWhere p t ↔ r ∈ t ∧ p r = false := by
  simp [deleteWhere]

theorem updateWhere_eq_self (f : Row → Row) (h : ∀ r ∈ t, p r = false) : updateWhere p f t = t := by
  induction t with
  | nil => rfl
  | cons r t ih =>
    have hr := h r List.mem_cons_self
    have ht := ih fun s hs => h s (List.mem_cons_of_mem r hs)
    simp only [updateWhere, List.map_cons, hr, Bool.false_eq_true, if_false] at ht ⊢
    rw [ht]

theorem updateWhere_eq_self_iff : updateWhere p f t = t ↔ ∀ r ∈ t, p r = true → f r = r := by
  induction t with
  | nil => simp [updateWhere]
  | cons r t ih =>
    have hcons : updateWhere p f (r :: t) = (if p r then f r else r) :: updateWhere p f t := rfl
    rw [hcons, List.cons_eq_cons, ih, List.forall_mem_cons, ite_eq_right_iff]

theorem updateWhere_twice_eq_self_iff {q : Row → Bool} {g : Row → Row} (hf : ∀ r, p r = true → q r = false ∧ q (f r) = false) :
    updateWhere q g (updateWhere p f t) = t ↔ (∀ r ∈ t, p r = true → f r = r) ∧ ∀ r ∈ t, q r = true → g r = r := by
  induction t with
  | nil => simp [updateWhere]
  | cons r t ih =>
    have hcons : updateWhere q g (updateWhere p f (r :: t)) =
        (if q (if p r then f r else r) then g (if p r then f r else r) else if p r then f r else r) ::
          updateWhere q g (updateWhere p f t) := rfl
    rw [hcons, List.cons_eq_cons, ih, List.forall_mem_cons, List.forall_mem_cons]
    cases hp : p r with
    | true => simp [hf r hp, and_assoc]
    | false =>
      cases hq : q r with
      | true =>
        simp only [hq, Bool.false_eq_true, false_implies, true_implies, true_and, if_true, if_false]
        exact and_left_comm
      | false => simp [hq]

theorem updateWhere_append (p : Row → Bool) (f : Row → Row) (t u : List Row) :
    updateWhere p f (t ++ u) = updateWhere p f t ++ updateWhere p f u := List.map_append

theorem updateWhere_updateWhere {g : Row → Row} (hg : ∀ r, p r = true → p (g r) = true) :
    updateWhere p f (updateWhere p g t) = updateWhere p (fun r => f (g r)) t := by
  rw [updateWhere, updateWhere, updateWhere, List.map_map]
  apply List.map_congr_left
  intro r _
  rw [Function.comp_apply]
  by_cases hr : p r = true
  · rw [if_pos hr, if_pos (hg r hr), if_pos hr]
  · rw [if_neg hr, if_neg hr, if_neg hr]

private theorem key_update (hf : ∀ r, p r = true → key (f r) = key r) (r : Row) :
    key (if p r then f r else r) = key r := by
  split
  · next h => exact hf r h
  · rfl

theorem updateWhere_map {p' : Row → Bool} {f' g : Row → Row} (hp : ∀ r, p' (g r) = p r) (hf : ∀ r, f' (g r) = g (f r)) :
    updateWhere p' f' (t.map g) = (updateWhere p f t).map g := by
  rw [updateWhere, updateWhere, List.map_map, List.map_map]
  apply List.map_congr_left
  intro r _
  rw [Function.comp_apply, Function.comp_apply, hp, hf]
  split
  · rfl
  · rfl

theorem map_key_updateWhere (hf : ∀ r, p r = true → key (f r) = key r) :
    (updateWhere p f t).map key = t.map key := by
  simp only [updateWhere, List.map_map]
  apply List.map_congr_left
  intro r _
  exact key_update hf r

namespace UniqueKey

theorem nil : UniqueKey key [] := List.nodup_nil

theorem eq_of_key_eq (h : UniqueKey key t) {r s : Row} (hr : r ∈ t) (hs : s ∈ t)
    (hk : key r = key s) : r = s := List.inj_on_of_nodup_map h hr hs hk

theorem updateWhere (h : UniqueKey key t) (hf : ∀ r, p r = true → key (f r) = key r) :
    UniqueKey key (updateWhere p f t) := by
  rw [UniqueKey, map_key_updateWhere hf]
  exact h

theorem deleteWhere (h : UniqueKey key t) : UniqueKey key (deleteWhere p t) :=
  h.sublist (List.filter_sublist.map key)

theorem append_singleton (h : UniqueKey key t) {r : Row} (hr : ∀ s ∈ t, key s ≠ key r) :
    UniqueKey key (t ++ [r]) := by
  rw [UniqueKey, List.map_append, List.nodup_append]
  refine ⟨h, List.nodup_singleton _, ?_⟩
  intro a ha b hb
  obtain ⟨s, hs, rfl⟩ := List.mem_map.mp ha
  obtain rfl := List.mem_singleton.mp hb
  exact hr s hs

theorem length_filter_le_one (h : UniqueKey key t) {k : Key} (hp : ∀ r ∈ t, p r = true → key r = k) :
    (t.filter p).length ≤ 1 := by
  have hnodup : ((t.filter p).map key).Nodup := h.sublist (List.filter_sublist.map key)
  have hall : ∀ x ∈ (t.filter p).map key, x = k := by
    intro x hx
    obtain ⟨r, hr, rfl⟩ := List.mem_map.mp hx
    rw [List.mem_filter] at hr
    exact hp r hr.1 hr.2
  rw [List.eq_replicate_of_mem hall, List.nodup_replicate, List.length_map] at hnodup
  exact hnodup

end UniqueKey

variable [DecidableEq Key]

theorem lookup_some {k : Key} {r : Row} (h : lookup key k t = some r) : r ∈ t ∧ key r = k := by
  refine ⟨List.mem_of_find?_eq_some h, ?_⟩
  simpa using List.find?_some h

theorem lookup_eq_none {k : Key} : lookup key k t = none ↔ ∀ r ∈ t, key r ≠ k := by
  simp [lookup]

theorem UniqueKey.lookup_eq_some_iff (h : UniqueKey key t) {k : Key} {r : Row} :
    lookup key k t = some r ↔ r ∈ t ∧ key r = k := by
  refine ⟨lookup_some, fun ⟨hr, hk⟩ => ?_⟩
  cases hl : lookup key k t with
  | none => exact absurd hk (lookup_eq_none.mp hl r hr)
  | some s =>
    obtain ⟨hs, hks⟩ := lookup_some hl
    rw [h.eq_of_key_eq hs hr (hks.trans hk.symm)]

theorem lookup_updateWhere (hf : ∀ r, p r = true → key (f r) = key r) (k : Key) :
    lookup key k (KeyedTables.updateWhere p f t) =
      (lookup key k t).map fun r => if p r then f r else r := by
  simp only [lookup, KeyedTables.updateWhere, List.find?_map, Function.comp_def, key_update hf]

theorem lookup_map {g : Row → Row} (hkey : ∀ r, key (g r) = key r) (k : Key) :
    lookup key k (t.map g) = (lookup key k t).map g := by
  simp only [lookup, List.find?_map, Function.comp_def, hkey]

theorem lookup_deleteWhere {k : Key} (h : ∀ r ∈ t, key r = k → p r = false) :
    lookup key k (KeyedTables.deleteWhere p t) = lookup key k t := by
  rw [lookup, lookup, KeyedTables.deleteWhere, List.find?_filter]
  apply List.find?_congr
  intro r hr
  by_cases hk : key r = k
  · simp [h r hr hk]
  · simp [hk]

theorem mem_upsertRow {row r : Row} (h : r ∈ upsertRow key row t) : r = row ∨ r ∈ t := by
  rw [upsertRow] at h
  split at h
  · obtain ⟨s, hs, rfl⟩ := mem_updateWhere.mp h
    split
    · exact .inl rfl
    · exact .inr hs
  · rcases List.mem_append.mp h with hr | hr
    · exact .inr hr
    · exact .inl (List.mem_singleton.mp hr)

theorem upsertRow_of_absent {row : Row} (h : lookup key (key row) t = none) : upsertRow key row t = t ++ [row] := by
  rw [upsertRow, if_neg]
  intro hany
  obtain ⟨r, hr, hkey⟩ := List.any_eq_true.mp hany
  exact lookup_eq_none.mp h r hr (of_decide_eq_true hkey)

theorem upsertRow_map {g : Row → Row} (hkey : ∀ r, key (g r) = key r) {row : Row} (hrow : g row = row) :
    upsertRow key row (t.map g) = (upsertRow key row t).map g := by
  have hany : (t.map g).any (fun r => key r = key row) = t.any fun r => key r = key row := by
    simp only [List.any_map, Function.comp_def, hkey]
  have hp : ∀ r, decide (key (g r) = key row) = decide (key r = key row) := by
    intro r
    rw [hkey]
  rw [upsertRow, upsertRow, hany]
  by_cases hmem : (t.any fun r => key r = key row) = true
  · rw [if_pos hmem, if_pos hmem]
    exact updateWhere_map hp fun _ => hrow.symm
  · rw [if_neg hmem, if_neg hmem, List.map_append, List.map_singleton, hrow]

theorem UniqueKey.upsertRow (h : UniqueKey key t) (row : Row) : UniqueKey key (upsertRow key row t) := by
  rw [KeyedTables.upsertRow]
  split
  · apply h.updateWhere
    intro r hr
    exact (of_decide_eq_true hr).symm
  · next hany =>
    apply h.append_singleton
    intro r hr hkey
    exact hany (List.any_eq_true.mpr ⟨r, hr, decide_eq_true hkey⟩)

theorem lookup_upsertRow_of_ne {row : Row} {k : Key} (hk : k ≠ key row) :
    lookup key k (upsertRow key row t) = lookup key k t := by
  rw [upsertRow]
  split
  · have hkey : ∀ r, decide (key r = key row) = true → key row = key r :=
      fun r hr => (of_decide_eq_true hr).symm
    rw [lookup_updateWhere hkey]
    cases hl : lookup key k t with
    | none => rfl
    | some r =>
      obtain ⟨-, rfl⟩ := lookup_some hl
      simp [hk]
  · simp [lookup, List.find?_append, hk.symm]

theorem lookup_upsertRow_self (row : Row) (t : List Row) :
    lookup key (key row) (upsertRow key row t) = some row := by
  rw [upsertRow]
  split
  · next hany =>
    obtain ⟨r, hr, hkey⟩ := List.any_eq_true.mp hany
    have hsame : ∀ r, decide (key r = key row) = true → key row = key r :=
      fun r hr => (of_decide_eq_true hr).symm
    rw [lookup_updateWhere hsame]
    cases hl : lookup key (key row) t with
    | none => exact absurd (of_decide_eq_true hkey) (lookup_eq_none.mp hl r hr)
    | some s =>
      obtain ⟨-, hs⟩ := lookup_some hl
      simp [hs]
  · next hany =>
    have hnone : lookup key (key row) t = none := by
      rw [lookup_eq_none]
      intro r hr hkey
      exact hany (List.any_eq_true.mpr ⟨r, hr, decide_eq_true hkey⟩)
    rw [lookup] at hnone ⊢
    simp [List.find?_append, hnone]

theorem UniqueKey.upsertRow_eq_updateWhere (h : UniqueKey key t) {r : Row} (hr : lookup key (key r) t = some r)
    (hp : ∀ s ∈ t, p s = true ↔ key s = key r) (hf : key (f r) = key r) :
    KeyedTables.upsertRow key (f r) t = KeyedTables.updateWhere p f t := by
  obtain ⟨hmem, -⟩ := lookup_some hr
  rw [KeyedTables.upsertRow, if_pos (List.any_eq_true.mpr ⟨r, hmem, decide_eq_true hf.symm⟩),
    KeyedTables.updateWhere, KeyedTables.updateWhere]
  apply List.map_congr_left
  intro s hs
  by_cases hkey : key s = key r
  · rw [if_pos (decide_eq_true (hkey.trans hf.symm)), if_pos ((hp s hs).mpr hkey), h.eq_of_key_eq hs hmem hkey]
  · rw [if_neg fun hp' => hkey ((hp s hs).mp hp'), if_neg (by simpa [hf] using hkey)]

def keyed (key : Row → Key) (t : List Row) : List (Key × Row) := t.map fun r => (key r, r)

theorem lookup_keyed (k : Key) : lookup Prod.fst k (keyed key t) = (lookup key k t).map fun r => (key r, r) := by
  simp only [lookup, keyed, List.find?_map, Function.comp_def]

theorem upsertRow_keyed (row : Row) :
    upsertRow Prod.fst (key row, row) (keyed key t) = keyed key (upsertRow key row t) := by
  have hany : (keyed key t).any (fun item => item.1 = key row) = t.any fun r => key r = key row := by
    simp only [keyed, List.any_map, Function.comp_def]
  rw [upsertRow, upsertRow, hany]
  split
  · rw [keyed, updateWhere, updateWhere, keyed, List.map_map, List.map_map]
    apply List.map_congr_left
    intro r _
    simp only [Function.comp_apply]
    split
    · rfl
    · rfl
  · rw [keyed, keyed, List.map_append, List.map_singleton]

end OpenMinion.KeyedTables
