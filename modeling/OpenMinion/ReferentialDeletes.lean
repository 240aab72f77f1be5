import Mathlib.Data.List.Induction
import OpenMinion.KeyedTables

/-!
# Deletes under foreign keys

Tables whose rows belong to owners, and foreign keys between them. Deleting an owner from all tables, children before
parents, succeeds exactly when no row of another owner refers to its rows.
-/
namespace OpenMinion.ReferentialDeletes
open KeyedTables

universe u v w x y

/-- Tables with foreign keys. A reference is given by the owner of its row, and a key by
its owner. -/
structure Schema (Db : Type u) (Table : Type v) (Owner : Type w) (Key : Type x) (ForeignKey : Type y)
    [DecidableEq Table] [DecidableEq Owner] where
  foreignKeys : List ForeignKey
  child : ForeignKey → Table
  parent : ForeignKey → Table
  references : Db → ForeignKey → List (Owner × Key)
  keys : Db → ForeignKey → List (Key × Owner)
  deleteFrom : Db → Table → Owner → Db
  references_deleteFrom : ∀ db t o fk, references (deleteFrom db t o) fk =
    if child fk = t then (references db fk).filter fun r => r.1 ≠ o else references db fk
  keys_deleteFrom : ∀ db t o fk, keys (deleteFrom db t o) fk =
    if parent fk = t then (keys db fk).filter fun k => k.2 ≠ o else keys db fk

namespace Schema

variable {Db : Type u} {Table : Type v} {Owner : Type w} {Key : Type x} {ForeignKey : Type y}
variable [DecidableEq Table] [DecidableEq Owner] (S : Schema Db Table Owner Key ForeignKey)

def violates [DecidableEq Key] (before after : Db) : Bool :=
  S.foreignKeys.any fun fk => (S.references after fk).any fun r =>
    r.2 ∈ (S.keys before fk).map Prod.fst && r.2 ∉ (S.keys after fk).map Prod.fst

def deleted (db : Db) (o : Owner) (ts : List Table) : Db := ts.foldl (fun db t => S.deleteFrom db t o) db

def deleteRows [DecidableEq Key] {Err : Type u} (err : Err) (o : Owner) (db : Db) (t : Table) : Except Err Db :=
  if S.violates db (S.deleteFrom db t o) then .error err else .ok (S.deleteFrom db t o)

/-- Some row of the first owner refers to a row of the second. -/
def Refers (db : Db) (fk : ForeignKey) (o o' : Owner) : Prop :=
  ∃ k, (o, k) ∈ S.references db fk ∧ (k, o') ∈ S.keys db fk

/-- Owners that may be deleted in this order: what refers to one of them is its own row, or
a row of an earlier one. -/
def FreeInOrder (db : Db) (os : List Owner) : Prop :=
  ∀ before o after, os = before ++ o :: after →
    ∀ fk ∈ S.foreignKeys, ∀ a, S.Refers db fk a o → a = o ∨ a ∈ before

def UniqueKeys (db : Db) : Prop := ∀ fk ∈ S.foreignKeys, UniqueKey Prod.fst (S.keys db fk)

/-- Every table that others refer to is there, and comes after those that refer to it. -/
def ChildrenFirst (ts : List Table) : Prop :=
  ts.Nodup ∧ ∀ fk ∈ S.foreignKeys, S.parent fk ∈ ts ∧ ts.idxOf (S.child fk) ≤ ts.idxOf (S.parent fk)

variable {S} {db : Db} {o : Owner} {fk : ForeignKey} {ts : List Table}

theorem deleted_concat (t : Table) : S.deleted db o (ts ++ [t]) = S.deleteFrom (S.deleted db o ts) t o := by
  simp [deleted]

theorem references_deleted (fk : ForeignKey) : S.references (S.deleted db o ts) fk =
    if S.child fk ∈ ts then (S.references db fk).filter fun r => r.1 ≠ o else S.references db fk := by
  induction ts using List.reverseRecOn with
  | nil => simp [deleted]
  | append_singleton ts t ih =>
    rw [deleted_concat, S.references_deleteFrom, ih]
    by_cases ht : S.child fk = t
    · subst ht
      by_cases hts : S.child fk ∈ ts <;> simp [hts]
    · simp [ht]

theorem keys_deleted (fk : ForeignKey) : S.keys (S.deleted db o ts) fk =
    if S.parent fk ∈ ts then (S.keys db fk).filter fun k => k.2 ≠ o else S.keys db fk := by
  induction ts using List.reverseRecOn with
  | nil => simp [deleted]
  | append_singleton ts t ih =>
    rw [deleted_concat, S.keys_deleteFrom, ih]
    by_cases ht : S.parent fk = t
    · subst ht
      by_cases hts : S.parent fk ∈ ts <;> simp [hts]
    · simp [ht]

theorem ChildrenFirst.child_mem (h : S.ChildrenFirst ts) {pre post : List Table} {t : Table}
    (hts : ts = pre ++ t :: post) (hfk : fk ∈ S.foreignKeys) (hparent : S.parent fk = t) :
    S.parent fk ∉ pre ∧ S.child fk ∈ pre ++ [t] := by
  have hnodup : t ∉ pre := by
    have hts := hts ▸ h.1
    rw [List.nodup_append] at hts
    exact fun hmem => hts.2.2 t hmem t List.mem_cons_self rfl
  refine ⟨hparent ▸ hnodup, ?_⟩
  by_contra hchild
  rw [List.mem_append, List.mem_singleton, not_or] at hchild
  have hle := (h.2 fk hfk).2
  rw [hparent, hts, List.idxOf_append_of_notMem hchild.1, List.idxOf_append_of_notMem hnodup,
    List.idxOf_cons_self, List.idxOf_cons_ne _ (Ne.symm hchild.2)] at hle
  omega

theorem UniqueKeys.deleted (h : S.UniqueKeys db) : S.UniqueKeys (S.deleted db o ts) := by
  intro fk hfk
  rw [keys_deleted]
  split
  · exact (h fk hfk).sublist (List.filter_sublist.map Prod.fst)
  · exact h fk hfk

theorem ChildrenFirst.refers_deleted (h : S.ChildrenFirst ts) (hfk : fk ∈ S.foreignKeys) {a b : Owner} :
    S.Refers (S.deleted db o ts) fk a b ↔ S.Refers db fk a b ∧ a ≠ o ∧ b ≠ o := by
  obtain ⟨hparent, hle⟩ := h.2 fk hfk
  have hchild : S.child fk ∈ ts := by
    rw [← List.idxOf_lt_length_iff] at hparent ⊢
    exact Nat.lt_of_le_of_lt hle hparent
  simp only [Refers, references_deleted, keys_deleted, hparent, hchild, if_true, List.mem_filter,
    decide_eq_true_eq]
  constructor
  · rintro ⟨k, ⟨hr, ha⟩, hk, hb⟩
    exact ⟨⟨k, hr, hk⟩, ha, hb⟩
  · rintro ⟨⟨k, hr, hk⟩, ha, hb⟩
    exact ⟨k, ⟨hr, ha⟩, hk, hb⟩

theorem freeInOrder_nil : S.FreeInOrder db [] := by
  intro before o after h
  cases before <;> cases h

theorem ChildrenFirst.freeInOrder_cons (h : S.ChildrenFirst ts) {os : List Owner} :
    S.FreeInOrder db (o :: os) ↔
      (∀ fk ∈ S.foreignKeys, ∀ a, S.Refers db fk a o → a = o) ∧ S.FreeInOrder (S.deleted db o ts) os := by
  constructor
  · intro hfree
    refine ⟨fun fk hfk a hrefers => ?_, fun before c after hos fk hfk a hrefers => ?_⟩
    · exact (hfree [] o os rfl fk hfk a hrefers).resolve_right List.not_mem_nil
    · obtain ⟨hrefers, ha, -⟩ := (h.refers_deleted hfk).mp hrefers
      have hearlier := hfree (o :: before) c after (by rw [hos]; rfl) fk hfk a hrefers
      exact hearlier.imp_right fun hmem => (List.mem_cons.mp hmem).resolve_left ha
  · rintro ⟨hfirst, hrest⟩ before c after hos fk hfk a hrefers
    cases before with
    | nil =>
      obtain ⟨rfl, -⟩ := List.cons.inj hos
      exact .inl (hfirst fk hfk a hrefers)
    | cons o' before =>
      obtain ⟨rfl, htail⟩ := List.cons.inj hos
      by_cases ha : a = o
      · exact .inr (ha ▸ List.mem_cons_self)
      · by_cases hc : c = o
        · exact absurd (hfirst fk hfk a (hc ▸ hrefers)) ha
        · have hleft := hrest before c after htail fk hfk a ((h.refers_deleted hfk).mpr ⟨hrefers, ha, hc⟩)
          exact hleft.imp_right (List.mem_cons_of_mem o)

variable [DecidableEq Key]

theorem violates_deleted (h : S.ChildrenFirst ts) (hkeys : S.UniqueKeys db) {pre post : List Table} {t : Table}
    (hts : ts = pre ++ t :: post) :
    S.violates (S.deleted db o pre) (S.deleteFrom (S.deleted db o pre) t o) = true ↔
      ∃ fk ∈ S.foreignKeys, S.parent fk = t ∧ ∃ a, a ≠ o ∧ S.Refers db fk a o := by
  rw [← deleted_concat, violates, List.any_eq_true]
  constructor
  · rintro ⟨fk, hfk, hany⟩
    obtain ⟨⟨a, k⟩, hr, hgone⟩ := List.any_eq_true.mp hany
    rw [Bool.and_eq_true, decide_eq_true_eq, decide_eq_true_eq] at hgone
    obtain ⟨hbefore, hafter⟩ := hgone
    have hparent : S.parent fk = t := by
      by_contra hne
      rw [deleted_concat, S.keys_deleteFrom, if_neg hne] at hafter
      exact hafter hbefore
    obtain ⟨hpre, hchild⟩ := h.child_mem hts hfk hparent
    rw [references_deleted, if_pos hchild] at hr
    rw [keys_deleted, if_neg hpre] at hbefore
    rw [keys_deleted, if_pos (by simp [hparent])] at hafter
    obtain ⟨⟨k', o'⟩, hk, rfl⟩ := List.mem_map.mp hbefore
    obtain ⟨hmem, hne⟩ := List.mem_filter.mp hr
    have ho : o' = o := by
      by_contra ho
      exact hafter (List.mem_map.mpr ⟨_, List.mem_filter.mpr ⟨hk, by simpa using ho⟩, rfl⟩)
    subst ho
    exact ⟨fk, hfk, hparent, a, by simpa using hne, k', hmem, hk⟩
  · rintro ⟨fk, hfk, hparent, a, hne, k, hr, hk⟩
    obtain ⟨hpre, hchild⟩ := h.child_mem hts hfk hparent
    refine ⟨fk, hfk, List.any_eq_true.mpr ⟨(a, k), ?_, ?_⟩⟩
    · rw [references_deleted, if_pos hchild]
      exact List.mem_filter.mpr ⟨hr, by simpa using hne⟩
    · rw [keys_deleted, if_neg hpre, keys_deleted, if_pos (by simp [hparent]), Bool.and_eq_true,
        decide_eq_true_eq, decide_eq_true_eq]
      refine ⟨List.mem_map.mpr ⟨_, hk, rfl⟩, fun hleft => ?_⟩
      obtain ⟨⟨k', o'⟩, hk', hkk⟩ := List.mem_map.mp hleft
      obtain ⟨hmem, ho'⟩ := List.mem_filter.mp hk'
      have heq := (hkeys fk hfk).eq_of_key_eq hmem hk hkk
      rw [heq] at ho'
      simp at ho'

section Loop

variable {Err : Type u} (err : Err) (h : S.ChildrenFirst ts) (hkeys : S.UniqueKeys db)
include h hkeys

private theorem loop_ok (hfree : ∀ fk ∈ S.foreignKeys, ∀ a, S.Refers db fk a o → a = o) (pre post : List Table)
    (hts : ts = pre ++ post) :
    post.foldlM (S.deleteRows err o) (S.deleted db o pre) = .ok (S.deleted db o ts) := by
  induction post generalizing pre with
  | nil => rw [hts, List.append_nil]; rfl
  | cons t post ih =>
    have hok : S.violates (S.deleted db o pre) (S.deleteFrom (S.deleted db o pre) t o) = false := by
      rw [Bool.eq_false_iff]
      intro hviolates
      obtain ⟨fk, hfk, -, a, hne, hrefers⟩ := (violates_deleted h hkeys hts).mp hviolates
      exact hne (hfree fk hfk a hrefers)
    rw [List.foldlM_cons, deleteRows, hok, ← deleted_concat]
    exact ih _ (by rw [hts, List.append_assoc]; rfl)

theorem deleteTables_ok (hfree : ∀ fk ∈ S.foreignKeys, ∀ a, S.Refers db fk a o → a = o) :
    ts.foldlM (S.deleteRows err o) db = .ok (S.deleted db o ts) :=
  loop_ok err h hkeys hfree [] ts rfl

private theorem loop_error {fk : ForeignKey} (hfk : fk ∈ S.foreignKeys) {a : Owner} (hne : a ≠ o)
    (hrefers : S.Refers db fk a o) (pre post : List Table) (hts : ts = pre ++ post) (hparent : S.parent fk ∈ post) :
    post.foldlM (S.deleteRows err o) (S.deleted db o pre) = .error err := by
  induction post generalizing pre with
  | nil => cases hparent
  | cons t post ih =>
    rw [List.foldlM_cons, deleteRows, ← deleted_concat]
    cases hv : S.violates (S.deleted db o pre) (S.deleted db o (pre ++ [t])) with
    | true => rfl
    | false =>
      -- the statement for the parent table of the reference is still to come
      have hpost : S.parent fk ∈ post := by
        refine (List.mem_cons.mp hparent).resolve_left fun ht => ?_
        rw [deleted_concat] at hv
        have hviolates := (violates_deleted h hkeys hts).mpr ⟨fk, hfk, ht, a, hne, hrefers⟩
        exact absurd (hv.symm.trans hviolates) (by simp)
      exact ih _ (by rw [hts, List.append_assoc]; rfl) hpost

theorem deleteTables_error {fk : ForeignKey} (hfk : fk ∈ S.foreignKeys) {a : Owner} (hne : a ≠ o)
    (hrefers : S.Refers db fk a o) : ts.foldlM (S.deleteRows err o) db = .error err :=
  loop_error err h hkeys hfk hne hrefers [] ts rfl (h.2 fk hfk).1

end Loop

end Schema

end OpenMinion.ReferentialDeletes
