import Mathlib.Data.Multiset.MapFold
import OpenMinion.OmxExports

/-!
# The tables of an import's target

A schema says what a table keeps of a row, what a key refuses, and what an insert or the deletion of all rows does
to the other tables. The rows of a table have no order.
-/
namespace OpenMinion.TargetTables
open JsonValues OmxExports OmxImports RecordStoreWrites

/-- The rows of each table. -/
abbrev Held := String → Multiset SqlRow

structure Schema where
  /-- A `DELETE` of the table compiles. -/
  names : String → Bool
  /-- An `INSERT` of these columns compiles. -/
  columns : String → List String → Bool
  /-- It compiles with the names of the columns as they are, without quotes. -/
  bareColumns : String → List String → Bool
  /-- What the table keeps of a row, and the other tables then; `none` when a type, a check or a key refuses it. -/
  stores : Held → String → Row Json → Option (SqlRow × Held)
  /-- The other tables when all rows of a table are deleted; `none` when a foreign key refuses it. -/
  releases : Held → String → Option Held

namespace Schema

variable (schema : Schema)

/-- `DELETE FROM` a table. -/
def delete (held : Held) (table : String) : Option Held :=
  if schema.names table then (schema.releases held table).map fun others => Function.update others table 0 else none

def insert (held : Held) (table : String) (row : Row Json) : Option Held :=
  (schema.stores held table row).map fun (kept, others) => Function.update others table (kept ::ₘ held table)

/-- What a table keeps of rows that are inserted one after the other up to the first that is refused, the tables then,
and whether no row is refused. -/
def taken (table : String) : Held → List (Row Json) → List SqlRow × Held × Bool
  | held, [] => ([], held, true)
  | held, row :: rows =>
    match schema.stores held table row with
    | none => ([], held, false)
    | some (kept, others) =>
      let rest := taken table (Function.update others table (kept ::ₘ held table)) rows
      (kept :: rest.1, rest.2)

/-- A record store quotes the columns, and takes rows of the same columns alone; the statement for a file has the
columns of the first row as they are. -/
def compatible (bare : Bool) (table : String) : List (Row Json) → Bool
  | [] => true
  | first :: rows =>
    if bare then schema.bareColumns table (first.map Prod.fst)
    else schema.columns table (first.map Prod.fst) && !(rows.any fun row => !sameColumns first row)

def aligned (bare : Bool) : List (Row Json) → List (Row Json)
  | [] => []
  | first :: rows =>
    if bare then (first :: rows).map fun row => (first.map Prod.fst).map fun column => (column, Dict.get row column)
    else first :: rows

/-- What a table keeps of the rows of a bundle; those that are no objects are refused as a whole. -/
def given (bare : Bool) (table : String) (held : Held) (rows : List Json) : List SqlRow × Held × Bool :=
  match rows.mapM asRow with
  | none => ([], held, false)
  | some rows => if schema.compatible bare table rows then schema.taken table held (aligned bare rows) else ([], held, false)

/-- The tables when one is emptied and given rows. Without rows it need not be there, and a record store does not
mind a foreign key. -/
def exchange (bare : Bool) (held : Held) (table : String) (rows : List Json) : Option Held :=
  match schema.delete held table with
  | none => if rows = [] ∧ (bare = true → schema.names table = false) then some held else none
  | some emptied =>
    let given := schema.given bare table emptied rows
    if given.2.2 then some given.2.1 else none

/-- The tables when each table of a bundle has been exchanged in turn. -/
def rewritten (bare : Bool) (held : Held) : List (String × Option (List Json)) → Option Held
  | [] => some held
  | (table, rows) :: tables =>
    rows.bind fun rows => (schema.exchange bare held table rows).bind fun held => rewritten bare held tables

variable {schema} (table : String) (held : Held)

theorem taken_table (rows : List (Row Json)) :
    (schema.taken table held rows).2.1 table = held table + (schema.taken table held rows).1 := by
  induction rows generalizing held with
  | nil => exact (add_zero _).symm
  | cons row rows ih =>
    rw [taken]
    split
    · exact (add_zero _).symm
    · next kept others _ =>
      dsimp only
      rw [ih, Function.update_self, ← Multiset.cons_coe, Multiset.add_cons, Multiset.cons_add]

theorem taken_nil {rows : List (Row Json)} (h : (schema.taken table held rows).1 = []) : (schema.taken table held rows).2.1 = held := by
  cases rows with
  | nil => rfl
  | cons row rows =>
    rw [taken] at h ⊢
    split
    · rfl
    · next hstores =>
      rw [hstores] at h
      cases h

theorem given_table (bare : Bool) (rows : List Json) :
    (schema.given bare table held rows).2.1 table = held table + (schema.given bare table held rows).1 := by
  rw [given]
  split
  · exact (add_zero _).symm
  · split
    · exact taken_table table held _
    · exact (add_zero _).symm

theorem given_nil {bare : Bool} {rows : List Json} (h : (schema.given bare table held rows).1 = []) :
    (schema.given bare table held rows).2.1 = held := by
  rw [given] at h ⊢
  split
  · rfl
  · next hrows =>
    rw [hrows] at h
    dsimp only at h
    split
    · next hcompatible =>
      rw [if_pos hcompatible] at h
      exact taken_nil table held h
    · rfl

variable {table held}

theorem delete_empty {emptied : Held} (h : schema.delete held table = some emptied) : emptied table = 0 := by
  rw [delete] at h
  split at h
  · obtain ⟨others, -, rfl⟩ := Option.map_eq_some_iff.mp h
    exact Function.update_self _ _ _
  · cases h

end Schema

/-- The rows of all tables of a bundle. -/
def totalRows (tables : List (String × Option (List Json))) : ℕ := (tables.map fun table => (table.2.getD []).length).sum

end OpenMinion.TargetTables
