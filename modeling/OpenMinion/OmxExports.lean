import OpenMinion.JsonRows
import OpenMinion.OmxImports

/-!
# OMX exports

`export_omx` writes each table as a file of JSON lines. A filter selects rows by the columns that a table has, and a
table without them is skipped. A BLOB is read back as the text that `str` gives.
-/
namespace OpenMinion.OmxExports
open DecimalTexts JsonRows JsonValues OmxImports PythonText

inductive SqlValue
  | null
  | integer (n : ℤ)
  | real (x : Finite)
  | text (s : String)
  | blob (bytes : List UInt8)
  deriving DecidableEq

abbrev SqlRow := List (String × SqlValue)

structure SourceTable where
  name : String
  schema : Option String
  columns : List String
  rows : List SqlRow
  distinct : columns.Nodup
  shape : ∀ row ∈ rows, row.map Prod.fst = columns

structure Source where
  tables : List SourceTable
  distinct : (tables.map SourceTable.name).Nodup

/-- The arguments of a partial export; `since` is given by its text. -/
structure PartialFilter where
  since : Option String
  namespaceName : Option String
  whereClause : Option String

/-- What SQLite selects of a table, for a clause of a filter and its parameters; `none` is an error. -/
structure Reader where
  select : SourceTable → Option String → List String → Option (List SqlRow)
  satisfies : SourceTable → String → List String → SqlRow → Bool
  select_all : ∀ t, ∃ rows, select t none [] = some rows ∧ rows.Perm t.rows
  select_where : ∀ t clause params rows, select t (some clause) params = some rows →
    rows.Perm (t.rows.filter (satisfies t clause params))

def sincePart (columns : List String) : Option String → Option (List String × List String)
  | none => some ([], [])
  | some since =>
    if "updated_at" ∈ columns then some (["\"updated_at\" >= ?"], [since])
    else if "created_at" ∈ columns then some (["\"created_at\" >= ?"], [since])
    else none

def namespacePart (columns : List String) : Option String → Option (List String × List String)
  | none => some ([], [])
  | some name => if "namespace" ∈ columns then some (["\"namespace\" = ?"], [name]) else none

def wherePart : Option String → List String
  | none => []
  | some clause => if clause = "" then [] else ["(" ++ clause ++ ")"]

/-- `_build_partial_where`; `none` is a table to skip. -/
def buildPartialWhere (columns : List String) (filter : PartialFilter) : Option (Option String × List String) :=
  (sincePart columns filter.since).bind fun since =>
    (namespacePart columns filter.namespaceName).bind fun name =>
      let parts := since.1 ++ name.1 ++ wherePart filter.whereClause
      if parts = [] then some (none, []) else some (some (String.intercalate " AND " parts), since.2 ++ name.2)

def partialFilterForTable (filter : PartialFilter) (columns : List String) : Option (Option String × List String) :=
  if filter.since = none ∧ filter.namespaceName = none ∧ filter.whereClause = none then some (none, [])
  else buildPartialWhere columns filter

/-- The rows of a table that satisfy the filter; `none` for a table that is skipped. -/
def satisfying (reader : Reader) (filter : PartialFilter) (t : SourceTable) : Option (SqlRow → Bool) :=
  (partialFilterForTable filter t.columns).map fun selected =>
    match selected with
    | (none, _) => fun _ => true
    | (some clause, params) => reader.satisfies t clause params

def hexByte (b : UInt8) : List Char := ['\\', 'x', Nat.digitChar (b.toNat / 16), Nat.digitChar (b.toNat % 16)]

/-- `str` of a `bytes` object. -/
def bytesText (bytes : List UInt8) : String :=
  let quote := if 39 ∈ bytes ∧ 34 ∉ bytes then '"' else '\''
  let body := bytes.flatMap fun b =>
    if b = 92 ∨ b.toNat = quote.toNat then ['\\', Char.ofNat b.toNat]
    else if b = 9 then ['\\', 't']
    else if b = 10 then ['\\', 'n']
    else if b = 13 then ['\\', 'r']
    else if 32 ≤ b ∧ b < 127 then [Char.ofNat b.toNat]
    else hexByte b
  String.ofList ('b' :: quote :: body ++ [quote])

/-- `json.dumps` writes what it cannot write as JSON with `default=str`. -/
def exportValue : SqlValue → Scalar
  | .null => .null
  | .integer n => .int n
  | .real x => .float x
  | .text s => .str s
  | .blob bytes => .str (bytesText bytes)

def exportRow (row : SqlRow) : Items := row.map fun cell => (cell.1, exportValue cell.2)

def tableText (rows : List SqlRow) : List Char := dumpsRows (rows.map exportRow)

/-- `LIKE 'sqlite_%'`, where the underscore is any character. -/
def isInternal (name : String) : Bool := (name.toList.map Char.toLower).take 6 = "sqlite".toList && 7 ≤ name.length

def listTables (source : Source) : List SourceTable :=
  (source.tables.filter fun t => !isInternal t.name).insertionSort fun a b => a.name ≤ b.name

/-- The tables that are exported, with the rows that are selected; `none` when SQLite raises. -/
def exportTables (reader : Reader) (filter : PartialFilter) : List SourceTable → Option (List (SourceTable × List SqlRow))
  | [] => some []
  | t :: tables =>
    match partialFilterForTable filter t.columns with
    | none => exportTables reader filter tables
    | some (clause, params) => do
      let rows ← reader.select t clause params
      let rest ← exportTables reader filter tables
      return (t, rows) :: rest

structure Bundle where
  manifest : OmxManifest
  files : String → Option (List Char)

def tablePath (name : String) : String := "tables/" ++ name ++ ".jsonl"

def tableEntry (sha256 : List Char → String) (exported : SourceTable × List SqlRow) : OmxTableEntry where
  name := exported.1.name
  path := tablePath exported.1.name
  rowCount := exported.2.length
  sha256 := sha256 (tableText exported.2)

def schemaItems (tables : List SourceTable) : Dict :=
  tables.filterMap fun t => t.schema.map fun schema => (t.name, .str schema)

def optionalText (value : Option String) : Json := (value.map Json.str).getD .null

def bundleBlobs (source : Source) (filter : PartialFilter) : Json :=
  let tables := listTables source
  let skipped := tables.filter fun t => (partialFilterForTable filter t.columns).isNone
  .dict (("schemas", .dict (schemaItems tables)) ::
    if filter.since = none ∧ filter.namespaceName = none ∧ filter.whereClause = none then []
    else
      [("partial_filter", .dict
        [("since", optionalText filter.since), ("namespace", optionalText filter.namespaceName),
          ("where_clause", optionalText filter.whereClause), ("skipped_tables", .list (skipped.map fun t => .str t.name))])])

/-- `export_omx` of a SQLite store. -/
def exportOmx (sha256 : List Char → String) (reader : Reader) (moduleId dbPath : String) (source : Source)
    (filter : PartialFilter) : Option Bundle :=
  (exportTables reader filter (listTables source)).map fun exported =>
    { manifest := ⟨moduleId, dbPath, exported.map (tableEntry sha256), bundleBlobs source filter⟩
      files path := (exported.find? fun e => tablePath e.1.name == path).map fun e => tableText e.2 }

def bundleLibrary (sha256 : List Char → String) : BundleLibrary (List Char) where
  sha256 := sha256
  textLines text := some ((lines (universalNewlines text)).map String.ofList)
  loads line := loads line.toList

variable {reader : Reader} {filter : PartialFilter} {t : SourceTable}

theorem params_nil {columns params : List String} (h : partialFilterForTable filter columns = some (none, params)) : params = [] := by
  rw [partialFilterForTable] at h
  split at h
  · exact (Prod.mk.inj (Option.some.inj h)).2.symm
  · rw [buildPartialWhere] at h
    obtain ⟨since, -, h⟩ := Option.bind_eq_some_iff.mp h
    obtain ⟨name, -, h⟩ := Option.bind_eq_some_iff.mp h
    dsimp only at h
    split at h
    · exact (Prod.mk.inj (Option.some.inj h)).2.symm
    · cases h

theorem select_perm {clause : Option String} {params : List String} {rows : List SqlRow}
    (hfilter : partialFilterForTable filter t.columns = some (clause, params)) (hselect : reader.select t clause params = some rows) :
    ∃ p, satisfying reader filter t = some p ∧ rows.Perm (t.rows.filter p) := by
  rw [satisfying, hfilter]
  cases clause with
  | none =>
    obtain ⟨all, hall, hperm⟩ := reader.select_all t
    rw [params_nil hfilter, hall] at hselect
    refine ⟨_, rfl, ?_⟩
    rw [← Option.some.inj hselect, List.filter_true]
    exact hperm
  | some clause => exact ⟨_, rfl, reader.select_where t clause params rows hselect⟩

theorem exportTables_spec {tables : List SourceTable} {exported : List (SourceTable × List SqlRow)}
    (h : exportTables reader filter tables = some exported) :
    exported.map Prod.fst = tables.filter (fun t => (satisfying reader filter t).isSome) ∧
      ∀ e ∈ exported, ∃ p, satisfying reader filter e.1 = some p ∧ e.2.Perm (e.1.rows.filter p) := by
  induction tables generalizing exported with
  | nil =>
    rw [← Option.some.inj h]
    exact ⟨rfl, fun _ he => nomatch he⟩
  | cons t tables ih =>
    rw [exportTables] at h
    cases hfilter : partialFilterForTable filter t.columns with
    | none =>
      have hskipped : satisfying reader filter t = none := by
        rw [satisfying, hfilter]
        rfl
      rw [hfilter] at h
      rw [List.filter_cons_of_neg (by simp [hskipped])]
      exact ih h
    | some selected =>
      obtain ⟨clause, params⟩ := selected
      rw [hfilter] at h
      simp only [Option.bind_eq_bind, Option.bind_eq_some_iff] at h
      obtain ⟨rows, hselect, rest, hrest, heq⟩ := h
      obtain ⟨p, hp, hperm⟩ := select_perm hfilter hselect
      obtain ⟨htables, hrows⟩ := ih hrest
      rw [← Option.some.inj heq, List.filter_cons_of_pos (by simp [hp]), List.map_cons, htables]
      refine ⟨rfl, ?_⟩
      intro e he
      rcases List.mem_cons.mp he with rfl | he
      · exact ⟨p, hp, hperm⟩
      · exact hrows e he

theorem mem_listTables {source : Source} : t ∈ listTables source ↔ t ∈ source.tables ∧ isInternal t.name = false := by
  rw [listTables, (List.perm_insertionSort _ _).mem_iff, List.mem_filter, Bool.not_eq_true']

theorem ordered_listTables (source : Source) : (listTables source).Pairwise fun a b => a.name < b.name := by
  have : Std.Total fun a b : SourceTable => a.name ≤ b.name := ⟨fun a b => le_total a.name b.name⟩
  have : IsTrans SourceTable fun a b => a.name ≤ b.name := ⟨fun _ _ _ h h' => le_trans h h'⟩
  have hsorted : (listTables source).Pairwise fun a b => a.name ≤ b.name := List.pairwise_insertionSort _ _
  have hperm := (List.perm_insertionSort (fun a b : SourceTable => a.name ≤ b.name)
    (source.tables.filter fun t => !isInternal t.name)).map SourceTable.name
  have hdistinct : ((listTables source).map SourceTable.name).Nodup :=
    hperm.nodup_iff.mpr (source.distinct.sublist (List.filter_sublist.map _))
  exact (hsorted.and (List.pairwise_map.mp hdistinct)).imp fun h => lt_of_le_of_ne h.1 h.2

theorem tablePath_injective : Function.Injective tablePath := by
  intro a b h
  rw [tablePath, tablePath, String.append_assoc, String.append_assoc] at h
  have hlist := congrArg String.toList h
  simp only [String.toList_append] at hlist
  exact String.toList_inj.mp (List.append_cancel_right (List.append_cancel_left hlist))

def jsonRow (row : SqlRow) : Dict := jsonItems (exportRow row)

theorem mapM_loads {rows : List SqlRow} (hkeys : ∀ row ∈ rows, (row.map Prod.fst).Nodup) (sha256 : List Char → String) :
    ((rows.map fun row => String.ofList (dumpsRow (exportRow row) ++ ['\n'])).mapM (bundleLibrary sha256).loads) =
      some (rows.map fun row => Json.dict (jsonRow row)) := by
  induction rows with
  | nil => rfl
  | cons row rows ih =>
    have hrow : ((exportRow row).map Prod.fst).Nodup := by
      rw [exportRow, List.map_map]
      exact hkeys row List.mem_cons_self
    have hload : (bundleLibrary sha256).loads (String.ofList (dumpsRow (exportRow row) ++ ['\n'])) = some (.dict (jsonRow row)) := by
      rw [bundleLibrary]
      dsimp only
      rw [String.toList_ofList, loads_dumpsRow hrow, jsonRow]
    rw [List.map_cons, List.mapM_cons, hload, ih fun other hother => hkeys other (List.mem_cons_of_mem row hother)]
    rfl

theorem readOmxBundleRows_exported {sha256 : List Char → String} {verify : Bool} {exported : List (SourceTable × List SqlRow)}
    (hnames : (exported.map fun e => e.1.name).Nodup) {e : SourceTable × List SqlRow} (he : e ∈ exported)
    (hkeys : ∀ row ∈ e.2, (row.map Prod.fst).Nodup) :
    readOmxBundleRows (bundleLibrary sha256) (fun path => (exported.find? fun e => tablePath e.1.name == path).map fun e => tableText e.2)
      verify (tableEntry sha256 e) = some (e.2.map fun row => .dict (jsonRow row)) := by
  have hfind : exported.find? (fun other => tablePath other.1.name == tablePath e.1.name) = some e := by
    obtain ⟨front, back, hsplit⟩ := List.append_of_mem he
    rw [hsplit, List.map_append, List.map_cons, List.nodup_append] at hnames
    have hfront : front.find? (fun other => tablePath other.1.name == tablePath e.1.name) = none := by
      rw [List.find?_eq_none]
      intro other hother hsame
      rw [beq_iff_eq] at hsame
      exact hnames.2.2 other.1.name (List.mem_map_of_mem (f := fun e => e.1.name) hother) e.1.name List.mem_cons_self
        (tablePath_injective hsame)
    rw [hsplit, List.find?_append, hfront, List.find?_cons_of_pos (by simp)]
    rfl
  have hlines : (lines (universalNewlines (tableText e.2))).map String.ofList =
      e.2.map fun row => String.ofList (dumpsRow (exportRow row) ++ ['\n']) := by
    rw [tableText, lines_dumpsRows, List.map_map, List.map_map]
    rfl
  have hkept : (e.2.map fun row => String.ofList (dumpsRow (exportRow row) ++ ['\n'])).filter (fun line => strip line != "") =
      e.2.map fun row => String.ofList (dumpsRow (exportRow row) ++ ['\n']) := by
    rw [List.filter_eq_self]
    intro line hline
    obtain ⟨row, -, rfl⟩ := List.mem_map.mp hline
    simpa using strip_dumpsRow (exportRow row)
  have hsame : ((bundleLibrary sha256).sha256 (tableText e.2) != sha256 (tableText e.2)) = false := by
    simp [bundleLibrary]
  have htext : (bundleLibrary sha256).textLines (tableText e.2) =
      some (e.2.map fun row => String.ofList (dumpsRow (exportRow row) ++ ['\n'])) := by
    rw [← hlines]
    rfl
  rw [readOmxBundleRows]
  dsimp only [tableEntry]
  rw [hfind]
  simp only [Option.map_some, Option.bind_eq_bind, Option.bind_some, hsame, Bool.and_false, Bool.false_eq_true, if_false, htext, hkept]
  exact mapM_loads hkeys sha256

end OpenMinion.OmxExports
