import OpenMinion.OmxTargets

/-!
# Transfers by OMX bundles

A bundle that was exported from a SQLite store is imported into a record store or a file, which empties each table of
the bundle and fills it with the bundle's rows.
-/
namespace OpenMinion.OmxTransfers
open JsonRows JsonValues OmxExports OmxImports OmxTargets RecordStoreWrites TargetTables

def NoBlob (row : SqlRow) : Prop := ∀ cell ∈ row, ∀ bytes, cell.2 ≠ .blob bytes

/-- What SQLite does with the tables of a target that has the tables of the source, and no triggers or
foreign keys that act on them. -/
structure PlainTables (schema : Schema) (source : Source) where
  /-- What a table keeps of an exported row. -/
  kept : String → SqlRow → SqlRow
  delete : ∀ held, ∀ t ∈ source.tables, ∃ emptied, schema.delete held t.name = some emptied ∧
    ∀ other, other ≠ t.name → emptied other = held other
  stores : ∀ held, ∀ t ∈ source.tables, ∀ row ∈ t.rows, ∀ row' others, schema.stores held t.name (jsonRow row) = some (row', others) →
    row' = kept t.name row ∧ ∀ other, other ≠ t.name → others other = held other
  kept_exact : ∀ t ∈ source.tables, ∀ row ∈ t.rows, NoBlob row → kept t.name row = row

/-- The texts of the source's schemas find their tables. -/
def FindsTables (executeText : Execution) (source : Source) : Prop :=
  ∀ t ∈ source.tables, ∀ text ∈ t.schema, ∀ conn, (executeText text conn).1 = conn

/-- A record store, or a file, with the tables of a schema. -/
def onSchema (schema : Schema) : Target Held Held → Target Held File
  | .recordStore held => .recordStore held
  | .dbPath held => .dbPath ⟨schema, held⟩

def isFile : Target Held File → Bool
  | .recordStore _ => false
  | .dbPath _ => true

def heldBefore : Target Held Held → Held
  | .recordStore held => held
  | .dbPath held => held

section
variable {schema : Schema} {source : Source} (plain : PlainTables schema source)

/-- The tables that are exported hold the rows that are, and the others what they held. -/
def PlainTables.Replaced (before after : Held) (exported : List (SourceTable × List SqlRow)) : Prop :=
  (∀ e ∈ exported, after e.1.name = (e.2.map (plain.kept e.1.name) : List SqlRow)) ∧
    ∀ other, (∀ e ∈ exported, e.1.name ≠ other) → after other = before other

/-- Tables that are exported in the order of their names, and rows of these. -/
structure Exported (source : Source) (exported : List (SourceTable × List SqlRow)) : Prop where
  tables : ∀ e ∈ exported, e.1 ∈ listTables source
  rows : ∀ e ∈ exported, ∀ row ∈ e.2, row ∈ e.1.rows
  ordered : exported.Pairwise fun e e' => e.1.name < e'.1.name

namespace Exported

variable {e : SourceTable × List SqlRow} {exported : List (SourceTable × List SqlRow)}

theorem mem (h : Exported source exported) (he : e ∈ exported) : e.1 ∈ source.tables := (mem_listTables.mp (h.tables e he)).1

theorem names (h : Exported source exported) : (exported.map fun e => e.1.name).Nodup := List.pairwise_map.mpr (h.ordered.imp ne_of_lt)

theorem later (h : Exported source (e :: exported)) : ∀ other ∈ exported, e.1.name < other.1.name := (List.pairwise_cons.mp h.ordered).1

theorem tail (h : Exported source (e :: exported)) : Exported source exported where
  tables other hother := h.tables other (List.mem_cons_of_mem e hother)
  rows other hother := h.rows other (List.mem_cons_of_mem e hother)
  ordered := (List.pairwise_cons.mp h.ordered).2

end Exported

/-- What the importer reads of an exported table. -/
def entryOf (e : SourceTable × List SqlRow) : String × Option (List Json) := (e.1.name, some (e.2.map fun row => .dict (jsonRow row)))

theorem mapM_asRow (rows : List SqlRow) : (rows.map fun row => Json.dict (jsonRow row)).mapM asRow = some (rows.map jsonRow) := by
  induction rows with
  | nil => rfl
  | cons row rows ih =>
    rw [List.map_cons, List.mapM_cons, ih]
    rfl

theorem keys_jsonRow (row : SqlRow) : (jsonRow row).map Prod.fst = row.map Prod.fst := by
  rw [jsonRow, jsonItems, exportRow, List.map_map, List.map_map]
  rfl

theorem get_keys {d : Dict} (h : (d.map Prod.fst).Nodup) : ((d.map Prod.fst).map fun key => (key, Dict.get d key)) = d := by
  induction d with
  | nil => rfl
  | cons item d ih =>
    obtain ⟨key, value⟩ := item
    obtain ⟨hnew, hrest⟩ := List.nodup_cons.mp h
    rw [List.map_cons, List.map_cons, Dict.get_cons, if_pos rfl]
    refine congrArg ((key, value) :: ·) ?_
    conv_rhs => rw [← ih hrest]
    refine List.map_congr_left fun other hother => ?_
    rw [Dict.get_cons, if_neg]
    rintro rfl
    exact hnew hother

/-- The rows of a table have its columns, so that both statements are for the rows as they are. -/
theorem given_exported (bare : Bool) {t : SourceTable} {rows : List SqlRow} (hrows : ∀ row ∈ rows, row ∈ t.rows) (held : Held) :
    schema.given bare t.name held (rows.map fun row => .dict (jsonRow row)) =
      if schema.compatible bare t.name (rows.map jsonRow) then schema.taken t.name held (rows.map jsonRow) else ([], held, false) := by
  have haligned : Schema.aligned bare (rows.map jsonRow) = rows.map jsonRow := by
    cases rows with
    | nil => rfl
    | cons row rows =>
      cases bare with
      | false => rfl
      | true =>
        have hfirst : Schema.aligned true ((row :: rows).map jsonRow) =
            ((row :: rows).map jsonRow).map fun other => ((jsonRow row).map Prod.fst).map fun key => (key, Dict.get other key) := rfl
        rw [hfirst, List.map_map]
        refine List.map_congr_left fun other hother => ?_
        have hcolumns : (jsonRow row).map Prod.fst = (jsonRow other).map Prod.fst := by
          rw [keys_jsonRow, keys_jsonRow, t.shape row (hrows row List.mem_cons_self), t.shape other (hrows other hother)]
        rw [Function.comp_apply, hcolumns]
        refine get_keys ?_
        rw [keys_jsonRow, t.shape other (hrows other hother)]
        exact t.distinct
  rw [Schema.given, mapM_asRow]
  dsimp only
  rw [haligned]

theorem taken_rows {t : SourceTable} (ht : t ∈ source.tables) {rows : List SqlRow} (hrows : ∀ row ∈ rows, row ∈ t.rows) {held : Held}
    (h : (schema.taken t.name held (rows.map jsonRow)).2.2 = true) :
    (schema.taken t.name held (rows.map jsonRow)).1 = rows.map (plain.kept t.name) ∧
      ∀ other, other ≠ t.name → (schema.taken t.name held (rows.map jsonRow)).2.1 other = held other := by
  induction rows generalizing held with
  | nil => exact ⟨rfl, fun _ _ => rfl⟩
  | cons row rows ih =>
    rw [List.map_cons, Schema.taken] at h ⊢
    cases hstores : schema.stores held t.name (jsonRow row) with
    | none =>
      rw [hstores] at h
      cases h
    | some stored =>
      obtain ⟨row', others⟩ := stored
      rw [hstores] at h
      obtain ⟨rfl, hothers⟩ := plain.stores held t ht row (hrows row List.mem_cons_self) row' others hstores
      obtain ⟨hkept, hsame⟩ := ih (fun other hother => hrows other (List.mem_cons_of_mem row hother)) h
      refine ⟨congrArg (plain.kept t.name row :: ·) hkept, fun other hother => ?_⟩
      dsimp only
      rw [hsame other hother, Function.update_of_ne hother, hothers other hother]

theorem exchange_rows (plain : PlainTables schema source) {bare : Bool} {t : SourceTable} (ht : t ∈ source.tables) {rows : List SqlRow}
    (hrows : ∀ row ∈ rows, row ∈ t.rows) {held final : Held}
    (h : schema.exchange bare held t.name (rows.map fun row => .dict (jsonRow row)) = some final) :
    final t.name = rows.map (plain.kept t.name) ∧ ∀ other, other ≠ t.name → final other = held other := by
  obtain ⟨emptied, hdelete, hothers⟩ := plain.delete held t ht
  rw [Schema.exchange, hdelete] at h
  dsimp only at h
  rw [given_exported bare hrows] at h
  by_cases hcompatible : schema.compatible bare t.name (rows.map jsonRow) = true
  · simp only [hcompatible, if_true] at h
    split at h
    · next hall =>
      obtain ⟨hkept, hsame⟩ := taken_rows plain ht hrows hall
      rw [← Option.some.inj h]
      refine ⟨?_, fun other hother => (hsame other hother).trans (hothers other hother)⟩
      rw [Schema.taken_table, Schema.delete_empty hdelete, hkept]
      rfl
    · cases h
  · simp only [hcompatible] at h
    cases h

theorem rewritten_replaced (plain : PlainTables schema source) {bare : Bool} {exported : List (SourceTable × List SqlRow)}
    (hexported : Exported source exported) {held final : Held} (h : schema.rewritten bare held (exported.map entryOf) = some final) :
    plain.Replaced held final exported := by
  induction exported generalizing held with
  | nil =>
    rw [← Option.some.inj h]
    exact ⟨(fun _ he => by cases he), fun _ _ => rfl⟩
  | cons e exported ih =>
    obtain ⟨rows, hentry, h⟩ := Option.bind_eq_some_iff.mp h
    cases hentry
    obtain ⟨middle, hexchange, hrest⟩ := Option.bind_eq_some_iff.mp h
    obtain ⟨hrows, hothers⟩ := exchange_rows plain (hexported.mem List.mem_cons_self) (hexported.rows e List.mem_cons_self) hexchange
    obtain ⟨hlater, hkept⟩ := ih hexported.tail hrest
    have hnew := fun other hother => ne_of_gt (hexported.later other hother)
    constructor
    · intro other hother
      rcases List.mem_cons.mp hother with rfl | hother
      · rw [hkept _ hnew, hrows]
      · exact hlater other hother
    · intro other hother
      rw [hkept other fun e' he' => hother e' (List.mem_cons_of_mem e he')]
      exact hothers other (Ne.symm (hother e List.mem_cons_self))

theorem schemasOf_bundleBlobs (source : Source) (filter : PartialFilter) :
    schemasOf (bundleBlobs source filter) = some (.dict (schemaItems (listTables source))) := by
  simp [schemasOf, bundleBlobs, Json.truthy, Dict.has, Dict.get]

theorem schemaText_items (tables : List SourceTable) (table : String) :
    schemaText (.dict (schemaItems tables)) table = none ∨
      ∃ t ∈ tables, ∃ text, t.schema = some text ∧ schemaText (.dict (schemaItems tables)) table = some (some text) := by
  unfold schemaText
  dsimp only
  rw [Dict.get]
  cases hfind : (schemaItems tables).find? (·.1 == table) with
  | none => exact .inl rfl
  | some item =>
    obtain ⟨t, ht, hitem⟩ := List.mem_filterMap.mp (List.mem_of_find?_eq_some hfind)
    obtain ⟨text, htext, rfl⟩ := Option.map_eq_some_iff.mp hitem
    by_cases hempty : text = ""
    · exact .inl (if_pos hempty)
    · exact .inr ⟨t, ht, text, htext, if_neg hempty⟩

theorem ensureSchemas_finds {executeText : Execution} (commits : File → Bool)
    (hfinds : FindsTables executeText source) {tables : List SourceTable} (htables : ∀ t ∈ tables, t ∈ source.tables)
    (conn : Connection File) (entries : List OmxTableEntry) :
    (ensureSchemas (sqliteFile executeText commits) (.dict (schemaItems tables)) conn entries).1 = conn := by
  induction entries with
  | nil => rfl
  | cons entry entries ih =>
    have hfirst : (ensureTableSchema (sqliteFile executeText commits) (.dict (schemaItems tables)) conn entry.name).1 = conn := by
      unfold ensureTableSchema
      rcases schemaText_items tables entry.name with hnone | ⟨t, ht, text, hsome, htext⟩
      · rw [hnone]
      · have hexecute : (sqliteFile executeText commits).executeText text conn = executeText text conn := rfl
        have hconn := hfinds t (htables t ht) text hsome conn
        rw [htext]
        dsimp only
        rw [hexecute]
        cases hexecuted : executeText text conn with
        | mk conn' e =>
          rw [hexecuted] at hconn
          rcases e with _ | _ | _ <;> exact hconn
    rw [ensureSchemas]
    cases hensure : ensureTableSchema (sqliteFile executeText commits) (.dict (schemaItems tables)) conn entry.name with
    | mk conn' ok =>
      rw [hensure] at hfirst
      cases hfirst
      cases ok with
      | true => exact ih
      | false => rfl

variable {sha256 : List Char → String} {filter : PartialFilter} {reader : Reader} {exported : List (SourceTable × List SqlRow)}

theorem exported_tables (h : exportTables reader filter (listTables source) = some exported) : Exported source exported := by
  obtain ⟨htables, hselected⟩ := exportTables_spec h
  refine ⟨fun e he => ?_, fun e he row hrow => ?_, ?_⟩
  · have hmem : e.1 ∈ exported.map Prod.fst := List.mem_map_of_mem he
    rw [htables] at hmem
    exact (List.mem_filter.mp hmem).1
  · obtain ⟨p, -, hperm⟩ := hselected e he
    exact (List.mem_filter.mp (hperm.mem_iff.mp hrow)).1
  · rw [← List.pairwise_map (f := Prod.fst) (R := fun a b : SourceTable => a.name < b.name), htables]
    exact (ordered_listTables source).sublist List.filter_sublist

/-- What the importer reads of the files of an export. -/
def readExported (sha256 : List Char → String) (exported : List (SourceTable × List SqlRow)) (verify : Bool) :
    OmxTableEntry → Option (List Json) :=
  readOmxBundleRows (bundleLibrary sha256) (fun path => (exported.find? fun e => tablePath e.1.name == path).map fun e => tableText e.2) verify

theorem readExported_entries (sha256 : List Char → String) (verify : Bool) (hexported : Exported source exported) :
    ((exported.map (tableEntry sha256)).map fun table => (table.name, readExported sha256 exported verify table)) = exported.map entryOf := by
  rw [List.map_map]
  refine List.map_congr_left fun e he => ?_
  rw [Function.comp_apply, readExported, readOmxBundleRows_exported hexported.names he]
  · rfl
  · intro row hrow
    rw [e.1.shape row (hexported.rows e he row hrow)]
    exact e.1.distinct

/-- The import of a bundle, with every file of it readable. -/
def imported (env : Environment (Store Contents) File) (sha256 : List Char → String) (bundle : Bundle) (verify : Bool)
    (target : Target Held File) : Target (Store Contents) File × RehydrateReport :=
  importOmx env (bundleLibrary sha256) bundle.files bundle.manifest verify (fun _ => false) (start target)

/-- The rows that the import starts with; those of a file are the ones that the texts of the schemas leave. -/
def Starts (schema : Schema) (executeText : Execution) (commits : File → Bool) (schemaMap : Json) (entries : List OmxTableEntry)
    (held : Held) (ensured : Bool) : Target Held File → Prop
  | .recordStore rows => rows = held
  | .dbPath file => ensureSchemas (sqliteFile executeText commits) schemaMap ⟨file, none⟩ entries = (⟨⟨schema, held⟩, none⟩, ensured)

variable {executeText : Execution} {commits : File → Bool} (connects verifies : Bool) {bundle : Bundle} {moduleId dbPath : String}

/-- An import that succeeds has rewritten the tables that it starts with and counts their rows; nothing but the
exchanges can make it fail where the file is opened, has its tables, and is committed and checked. -/
theorem import_spec (verify : Bool) {held : Held} {ensured : Bool} {target : Target Held File}
    (hexport : exportOmx sha256 reader moduleId dbPath source filter = some bundle)
    (hexported : exportTables reader filter (listTables source) = some exported)
    (hstarts : Starts schema executeText commits (.dict (schemaItems (listTables source))) (exported.map (tableEntry sha256)) held
      ensured target) :
    let result := imported (environment schema executeText commits connects verifies) sha256 bundle verify target
    let rewritten := schema.rewritten (isFile target) held (exported.map entryOf)
    (result.2.success = true → rewritten = some (heldOf result.1) ∧ result.2.importedRows = totalRows (exported.map entryOf)) ∧
      (rewritten.isSome = true → connects = true → verifies = true → (∀ file, commits file = true) → ensured = true →
        result.2.success = true) := by
  obtain ⟨exported', hexported', rfl⟩ := Option.map_eq_some_iff.mp hexport
  rw [hexported] at hexported'
  cases hexported'
  have hentries := readExported_entries sha256 verify (exported_tables hexported)
  cases target with
  | recordStore rows =>
    obtain rfl : rows = held := hstarts
    have hspec := importTables_spec schema (readExported sha256 exported verify) (idle_opened rows) 0 (exported.map (tableEntry sha256))
    rw [hentries, Nat.zero_add] at hspec
    cases hrewritten : schema.rewritten false rows (exported.map entryOf) with
    | none =>
      rw [hrewritten] at hspec
      exact ⟨fun h => absurd (hspec.symm.trans h) Bool.false_ne_true, fun h => by rw [isFile, hrewritten] at h; cases h⟩
    | some final =>
      rw [hrewritten] at hspec
      exact ⟨fun _ => ⟨hrewritten.trans (congrArg some hspec.1.contents.symm), congrArg Prod.fst hspec.2⟩,
        fun _ _ _ _ _ => congrArg Prod.snd hspec.2⟩
  | dbPath file =>
    cases connects with
    | false => exact ⟨fun h => (by cases h), fun _ h => by cases h⟩
    | true =>
      obtain ⟨-, hwritten, hsucceeds⟩ := writeTables_spec executeText commits (readExported sha256 exported verify) (fun _ => false)
        (⟨⟨schema, held⟩, none⟩, ensured) (exported.map (tableEntry sha256))
      rw [hentries] at hwritten hsucceeds
      rw [Starts] at hstarts
      simp only [imported, start, importOmx, environment, heldOf]
      rw [importFile_eq rfl (schemasOf_bundleBlobs source filter), hstarts, ← readExported]
      generalize writeTables (sqliteFile executeText commits) (readExported sha256 exported verify) (fun _ => false)
        (⟨⟨schema, held⟩, none⟩, ensured) (exported.map (tableEntry sha256)) = written at hwritten hsucceeds ⊢
      constructor
      · intro hsuccess
        obtain ⟨n, hn⟩ := Option.isSome_iff_exists.mp (Bool.and_eq_true_iff.mp hsuccess).1
        obtain ⟨-, hmap, hcount, -⟩ := hwritten n hn
        obtain ⟨final, hfinal, hcommitted⟩ := Option.map_eq_some_iff.mp hmap
        refine ⟨hfinal.trans (congrArg some (congrArg File.held hcommitted)), ?_⟩
        dsimp only
        rw [hn]
        exact hcount
      · intro hsome _ hverifies hcommits hensured
        obtain ⟨final, hfinal⟩ := Option.isSome_iff_exists.mp hsome
        have hfinal : schema.rewritten true held (exported.map entryOf) = some final := hfinal
        refine Bool.and_eq_true_iff.mpr ⟨hsucceeds (fun _ => rfl) hensured ⟨schema, final⟩ ?_ (hcommits _), hverifies⟩
        change (schema.rewritten true held (exported.map entryOf)).map _ = _
        rw [hfinal]
        rfl

/-- An import that succeeds gives every exported table exactly the rows of the source that satisfy the filter,
and leaves the other tables. -/
theorem partial_import_covers (plain : PlainTables schema source) (hfinds : FindsTables executeText source)
    (hexport : exportOmx sha256 reader moduleId dbPath source filter = some bundle) {verify : Bool} {target : Target Held Held}
    (hsuccess : (imported (environment schema executeText commits connects verifies) sha256 bundle verify
      (onSchema schema target)).2.success = true) :
    let after := heldOf (imported (environment schema executeText commits connects verifies) sha256 bundle verify (onSchema schema target)).1
    (∀ t ∈ source.tables, ∀ p, isInternal t.name = false → satisfying reader filter t = some p →
      after t.name = ((t.rows.filter p).map (plain.kept t.name) : List SqlRow)) ∧
    (∀ t ∈ source.tables, ∀ row ∈ t.rows, NoBlob row → plain.kept t.name row = row) ∧
    ∀ table, (∀ t ∈ source.tables, t.name = table → isInternal table = true ∨ satisfying reader filter t = none) →
      after table = heldBefore target table := by
  obtain ⟨exported, hexported, -⟩ := Option.map_eq_some_iff.mp hexport
  obtain ⟨ensured, hstarts⟩ : ∃ ensured, Starts schema executeText commits (.dict (schemaItems (listTables source)))
      (exported.map (tableEntry sha256)) (heldBefore target) ensured (onSchema schema target) := by
    cases target with
    | recordStore held => exact ⟨true, rfl⟩
    | dbPath held => exact ⟨_, Prod.ext (ensureSchemas_finds commits hfinds (fun t ht => (mem_listTables.mp ht).1) _ _) rfl⟩
  obtain ⟨hrewritten, -⟩ := (import_spec connects verifies verify hexport hexported hstarts).1 hsuccess
  obtain ⟨htables, hselected⟩ := exportTables_spec hexported
  have hreplaced := rewritten_replaced plain (exported_tables hexported) hrewritten
  refine ⟨?_, plain.kept_exact, ?_⟩
  · intro t ht p hlisted hp
    have hmem : t ∈ exported.map Prod.fst := by
      rw [htables, List.mem_filter, mem_listTables]
      exact ⟨⟨ht, hlisted⟩, by rw [hp]; rfl⟩
    obtain ⟨e, he, rfl⟩ := List.mem_map.mp hmem
    obtain ⟨p', hp', hperm⟩ := hselected e he
    rw [hp] at hp'
    cases hp'
    exact (hreplaced.1 e he).trans (Multiset.coe_eq_coe.mpr (hperm.map _))
  · intro table htable
    refine hreplaced.2 table ?_
    intro e he heq
    have hmem : e.1 ∈ exported.map Prod.fst := List.mem_map_of_mem he
    rw [htables, List.mem_filter, mem_listTables] at hmem
    rcases htable e.1 hmem.1.1 heq with hinternal | hskipped
    · rw [← heq, hmem.1.2] at hinternal
      cases hinternal
    · rw [hskipped] at hmem
      cases hmem.2

end

def sqlOf : Json → SqlValue
  | .null => .null
  | .int n => .integer n
  | .float q => if h : (DecimalTexts.Decimal.value (Decimal.ofRat q)) = q then .real ⟨q, h⟩ else .null
  | .str s => .text s
  | _ => .null

theorem sqlOf_exportValue {v : SqlValue} (h : ∀ bytes, v ≠ .blob bytes) : sqlOf (exportValue v).json = v := by
  cases v with
  | null => rfl
  | integer n => rfl
  | real x =>
    change (if h : (Decimal.ofRat x.value).value = x.value then SqlValue.real ⟨x.value, h⟩ else .null) = .real x
    rw [dif_pos x.value_eq]
  | text s => rfl
  | blob bytes => exact absurd rfl (h bytes)

/-- Tables of any names and columns, without keys. -/
def plainSchema : Schema where
  names _ := true
  columns _ _ := true
  bareColumns _ _ := true
  stores held _ row := some (row.map fun cell => (cell.1, sqlOf cell.2), held)
  releases held _ := some held

def keptRow (row : SqlRow) : SqlRow := row.map fun cell => (cell.1, sqlOf (exportValue cell.2).json)

theorem stored_jsonRow (row : SqlRow) : (jsonRow row).map (fun cell => (cell.1, sqlOf cell.2)) = keptRow row := by
  rw [jsonRow, jsonItems, exportRow, List.map_map, List.map_map]
  rfl

theorem keptRow_exact {row : SqlRow} (h : NoBlob row) : keptRow row = row := by
  rw [keptRow]
  conv_rhs => rw [← List.map_id row]
  exact List.map_congr_left fun cell hcell => congrArg (Prod.mk cell.1) (sqlOf_exportValue (h cell hcell))

def plainTables (source : Source) : PlainTables plainSchema source where
  kept _ := keptRow
  delete held t _ := ⟨_, rfl, fun _ hother => Function.update_of_ne hother _ _⟩
  stores held t _ row _ row' others h := by
    obtain ⟨rfl, rfl⟩ := Prod.mk.inj (Option.some.inj h)
    exact ⟨stored_jsonRow row, fun _ _ => rfl⟩
  kept_exact _ _ _ _ h := keptRow_exact h

def findsText (_ : String) (conn : Connection File) : Connection File × Option SqlError := (conn, some (.operational "table already exists"))

def plainEnvironment : Environment (Store Contents) File := environment plainSchema findsText (fun _ => true) true true

def note (name body : String) : SqlRow := [("namespace", .text name), ("body", .text body)]

def notes : SourceTable where
  name := "notes"
  schema := none
  columns := ["namespace", "body"]
  rows := [note "alpha" "a"]
  distinct := by decide
  shape := by decide

def noteSource : Source := ⟨[notes], by decide⟩

def namespaceReader : Reader where
  select t clause params :=
    match clause with
    | none => some t.rows
    | some _ => some (t.rows.filter fun row => params.all fun name => ("namespace", .text name) ∈ row)
  satisfies _ _ params row := params.all fun name => ("namespace", .text name) ∈ row
  select_all t := ⟨t.rows, rfl, .refl _⟩
  select_where t clause params rows h := by
    rw [← Option.some.inj h]

def alphaOnly : PartialFilter := ⟨none, some "alpha", none⟩

def noteBundle : Bundle :=
  (exportOmx (fun _ => "") namespaceReader "m" "" noteSource alphaOnly).getD ⟨⟨"", "", [], .null⟩, fun _ => none⟩

def betaTarget : Target Held Held := .recordStore fun table => if table = "notes" then {note "beta" "b"} else 0

theorem partial_import_covers_notes :
    heldOf (imported plainEnvironment (fun _ => "") noteBundle true (onSchema plainSchema betaTarget)).1 "notes" =
      ([note "alpha" "a"].map keptRow : List SqlRow) := by
  have hexport : exportOmx (fun _ => "") namespaceReader "m" "" noteSource alphaOnly = some noteBundle := rfl
  exact (partial_import_covers true true (plainTables noteSource) (fun _ _ _ _ _ => rfl) hexport (by decide +kernel)).1 notes List.mem_cons_self _
    (by decide) rfl

/-- The note of the other namespace does not satisfy the filter and is gone. -/
theorem partial_import_deletes :
    ∃ p, satisfying namespaceReader alphaOnly notes = some p ∧ p (note "beta" "b") = false ∧
      note "beta" "b" ∈ heldBefore betaTarget "notes" ∧
      note "beta" "b" ∉ heldOf (imported plainEnvironment (fun _ => "") noteBundle true (onSchema plainSchema betaTarget)).1 "notes" :=
  ⟨_, rfl, by decide, by decide, by decide +kernel⟩

end OpenMinion.OmxTransfers
