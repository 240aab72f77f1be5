import OpenMinion.OmxFailures

/-!
# Round trips by OMX bundles

A full export is imported into a fresh file or into a record store. A BLOB comes back as a text, the listing leaves out
what it takes for tables of SQLite, and the keys of the store are enforced in the order of the names.
-/
namespace OpenMinion.OmxRoundTrips
open JsonRows JsonValues OmxExports OmxFailures OmxImports OmxTargets OmxTransfers RecordStoreWrites TargetTables

/-- The rows, and their cells that are not NULL. -/
def weight (rows : Multiset SqlRow) : ℕ := (rows.map fun row => 1 + row.countP fun cell => decide (cell.2 ≠ .null)).sum

/-- The target has the tables of the source. A foreign key deletes rows of other tables or sets values of theirs to NULL. -/
structure Matches (schema : Schema) (source : Source) : Prop where
  /-- A row without a BLOB is kept as it is, no text as a BLOB, and the tables that come before are left. -/
  stores : ∀ held, ∀ t ∈ source.tables, ∀ row ∈ t.rows, ∀ kept others, schema.stores held t.name (jsonRow row) = some (kept, others) →
    NoBlob kept ∧ (NoBlob row → kept = row) ∧ ∀ other ∈ listTables source, other.name < t.name → others other.name = held other.name
  releases : ∀ held table others, schema.releases held table = some others → ∀ other ∈ listTables source, other.name < table →
    (others other.name = held other.name ∨ weight (others other.name) < weight (held other.name)) ∧
      ((∀ row ∈ held other.name, NoBlob row) → ∀ row ∈ others other.name, NoBlob row)

section
variable (schema : Schema) (source : Source) (bare : Bool)

/-- No `DELETE` for a later table takes rows or values from this one. -/
def Undisturbed (table : String) : Held → List (SourceTable × List SqlRow) → Prop
  | _, [] => True
  | held, (t, rows) :: exported =>
    match schema.delete held t.name with
    | none => Undisturbed table held exported
    | some emptied =>
      emptied table = held table ∧ Undisturbed table (schema.taken t.name emptied (rows.map jsonRow)).2.1 exported

end

section
variable {schema : Schema} {source : Source}

theorem taken_spec (hmatches : Matches schema source) {t : SourceTable} (ht : t ∈ source.tables) {rows : List SqlRow}
    (hrows : ∀ row ∈ rows, row ∈ t.rows) (held : Held) :
    (∀ row ∈ (schema.taken t.name held (rows.map jsonRow)).1, NoBlob row) ∧
      ((∀ row ∈ rows, NoBlob row) → (schema.taken t.name held (rows.map jsonRow)).2.2 = true →
        (schema.taken t.name held (rows.map jsonRow)).1 = rows) ∧
      ∀ other ∈ listTables source, other.name < t.name →
        (schema.taken t.name held (rows.map jsonRow)).2.1 other.name = held other.name := by
  induction rows generalizing held with
  | nil => exact ⟨(fun _ h => by cases h), fun _ _ => rfl, fun _ _ _ => rfl⟩
  | cons row rows ih =>
    rw [List.map_cons, Schema.taken]
    cases hstores : schema.stores held t.name (jsonRow row) with
    | none => exact ⟨(fun _ h => by cases h), (fun _ h => by cases h), fun _ _ _ => rfl⟩
    | some stored =>
      obtain ⟨kept, others⟩ := stored
      obtain ⟨hkept, hsame, hothers⟩ := hmatches.stores held t ht row (hrows row List.mem_cons_self) kept others hstores
      obtain ⟨hblobs, hall, hbefore⟩ := ih (fun row hrow => hrows row (List.mem_cons_of_mem _ hrow))
        (Function.update others t.name (kept ::ₘ held t.name))
      refine ⟨List.forall_mem_cons.mpr ⟨hkept, hblobs⟩, fun hno hfull => ?_, fun other hother hlt => ?_⟩
      · obtain ⟨hfirst, hrest⟩ := List.forall_mem_cons.mp hno
        dsimp only
        rw [hall hrest hfull, hsame hfirst]
      · dsimp only
        rw [hbefore other hother hlt, Function.update_of_ne (ne_of_lt hlt), hothers other hother hlt]

section
variable {e : SourceTable × List SqlRow} {exported : List (SourceTable × List SqlRow)} {held final : Held} {bare : Bool}

theorem exchange_entry (hexports : Exported source (e :: exported)) :
    schema.exchange bare held e.1.name (e.2.map fun row => .dict (jsonRow row)) =
      match schema.delete held e.1.name with
      | none => if e.2 = [] ∧ (bare = true → schema.names e.1.name = false) then some held else none
      | some emptied =>
        if schema.compatible bare e.1.name (e.2.map jsonRow) = true ∧
            (schema.taken e.1.name emptied (e.2.map jsonRow)).2.2 = true then
          some (schema.taken e.1.name emptied (e.2.map jsonRow)).2.1
        else none := by
  rw [Schema.exchange]
  cases schema.delete held e.1.name with
  | none => simp only [List.map_eq_nil_iff]
  | some emptied =>
    dsimp only
    rw [given_exported bare (hexports.rows e List.mem_cons_self)]
    by_cases h : schema.compatible bare e.1.name (e.2.map jsonRow) = true
    · simp only [h, if_true, true_and]
    · simp only [h, false_and, if_false, Bool.false_eq_true]

/-- Later tables take rows or values from this one, or leave it as it is. -/
theorem undisturbed_iff (hmatches : Matches schema source) (hexports : Exported source exported) {d : SourceTable} (hd : d ∈ listTables source)
    (hbefore : ∀ e ∈ exported, d.name < e.1.name) (h : schema.rewritten bare held (exported.map entryOf) = some final) :
    weight (final d.name) ≤ weight (held d.name) ∧
      (Undisturbed schema d.name held exported ↔ final d.name = held d.name) ∧
      ((∀ row ∈ held d.name, NoBlob row) → ∀ row ∈ final d.name, NoBlob row) := by
  induction exported generalizing held with
  | nil =>
    rw [← Option.some.inj h]
    exact ⟨Nat.le_refl _, ⟨fun _ => rfl, fun _ => trivial⟩, id⟩
  | cons e exported ih =>
    obtain ⟨rows, hentry, h⟩ := Option.bind_eq_some_iff.mp h
    cases hentry
    obtain ⟨middle, hexchange, hrest⟩ := Option.bind_eq_some_iff.mp h
    rw [exchange_entry hexports] at hexchange
    have ht := hexports.mem List.mem_cons_self
    have hlt := hbefore e List.mem_cons_self
    obtain ⟨hweight, hiff, hblobs⟩ := ih hexports.tail (fun other hother => hbefore other (List.mem_cons_of_mem e hother)) hrest
    rw [Undisturbed]
    cases hdelete : schema.delete held e.1.name with
    | none =>
      rw [hdelete] at hexchange
      dsimp only at hexchange
      split at hexchange
      · cases hexchange
        exact ⟨hweight, hiff, hblobs⟩
      · cases hexchange
    | some emptied =>
      rw [hdelete] at hexchange
      dsimp only at hexchange
      split at hexchange
      · cases hexchange
        obtain ⟨-, -, hothers⟩ := taken_spec hmatches ht (hexports.rows e List.mem_cons_self) emptied
        rw [hothers d hd hlt] at hweight hiff hblobs
        have hworn : (emptied d.name = held d.name ∨ weight (emptied d.name) < weight (held d.name)) ∧
            ((∀ row ∈ held d.name, NoBlob row) → ∀ row ∈ emptied d.name, NoBlob row) := by
          rw [Schema.delete] at hdelete
          split at hdelete
          · obtain ⟨others, hreleases, rfl⟩ := Option.map_eq_some_iff.mp hdelete
            rw [Function.update_of_ne (ne_of_lt hlt)]
            exact hmatches.releases held e.1.name others hreleases d hd hlt
          · cases hdelete
        rcases hworn.1 with hsame | hless
        · rw [hsame] at hweight hiff hblobs
          exact ⟨hweight, (and_iff_right hsame).trans hiff, hblobs⟩
        · refine ⟨hweight.trans hless.le, ⟨fun h => ?_, fun h => ?_⟩, fun hno => hblobs (hworn.2 hno)⟩
          · exact absurd (congrArg weight h.1) (ne_of_lt hless)
          · exact absurd (congrArg weight h) (ne_of_lt (hweight.trans_lt hless))
      · cases hexchange

end

section
variable {reader : Reader} {exported : List (SourceTable × List SqlRow)} {sha256 : List Char → String}

def rowCount (tables : List SourceTable) : ℕ := (tables.map fun t => t.rows.length).sum

end

end

section
variable {schema : Schema} {source : Source} {sha256 : List Char → String} {exported : List (SourceTable × List SqlRow)} {reader : Reader}
  {executeText : Execution} {verify : Bool}

end

def data : SourceTable where
  name := "data"
  schema := none
  columns := ["content"]
  rows := [[("content", .blob [0])]]
  distinct := by decide
  shape := by decide

end OpenMinion.OmxRoundTrips
