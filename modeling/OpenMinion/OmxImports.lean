import Mathlib.Algebra.Ring.Int.Defs
import OpenMinion.JsonValues
import OpenMinion.PolicyDecisions
import OpenMinion.PythonText
import OpenMinion.RecordStoreWrites

/-!
# Imports of OMX bundles

An import replaces the tables of its target one after another. A file is written in one
transaction of its connection; a record store commits each of its calls by itself.
-/
namespace OpenMinion.OmxImports
open JsonValues PolicyDecisions RecordStoreWrites

structure OmxTableEntry where
  name : String
  path : String
  rowCount : ℤ
  sha256 : String

structure OmxManifest where
  moduleId : String
  sourceDbPath : String
  tables : List OmxTableEntry
  blobs : Json := .null

structure RehydrateReport where
  moduleId : String
  sourceDbPath : String
  success : Bool
  exportedRows : ℤ
  importedRows : ℕ

/-- `hashlib.sha256`, the lines of a file opened as UTF-8 text and `json.loads`; `none` where
they raise. -/
structure BundleLibrary (Bytes : Type) where
  sha256 : Bytes → String
  textLines : Bytes → Option (List String)
  loads : String → Option Json

/-- The rows of a table; `none` when its file is missing, has another checksum or a malformed line. -/
def readOmxBundleRows {Bytes : Type} (lib : BundleLibrary Bytes) (files : String → Option Bytes)
    (verifyChecksums : Bool) (tableEntry : OmxTableEntry) : Option (List Json) := do
  let bytes ← files tableEntry.path
  if verifyChecksums && lib.sha256 bytes != tableEntry.sha256 then none
  else ((← lib.textLines bytes).filter fun line => PythonText.strip line != "").mapM lib.loads

def asRow : Json → Option (Row Json)
  | .dict row => some row
  | _ => none

def deleteText (table : String) : String := "DELETE FROM \"" ++ table ++ "\""

structure RecordStore (S : Type) where
  perform : S → Call Json → S × Bool

section
variable {S : Type} (store : RecordStore S) (read : OmxTableEntry → Option (List Json))

/-- The store after the table is emptied and filled again, and the number of inserted rows; `none`
when a call raises. A table without rows need not exist. -/
def replaceTable (s : S) (table : String) (rows : List Json) : S × Option ℕ :=
  let (emptied, deleted) := store.perform s (.executeCount (deleteText table) [])
  if rows.isEmpty then (emptied, some 0)
  else if !deleted then (emptied, none)
  else match rows.mapM asRow with
    | none => (emptied, none)
    | some rows =>
      let (filled, ok) := store.perform emptied (.insertMany table rows)
      (filled, if ok then some rows.length else none)

/-- The loop over the tables: the store, the imported rows, and whether no table raised. The
reading of the `n`-th table meets an input fault when `unreadable n`. -/
def importTables (unreadable : ℕ → Bool) (s : S) (importedRows : ℕ) : List OmxTableEntry → S × ℕ × Bool
  | [] => (s, importedRows, true)
  | table :: tables =>
    match if unreadable 0 then none else read table with
    | none => (s, importedRows, false)
    | some rows =>
      match replaceTable store s table.name rows with
      | (s, none) => (s, importedRows, false)
      | (s, some inserted) => importTables (fun n => unreadable (n + 1)) s (importedRows + inserted) tables

def importViaRecordStore (unreadable : ℕ → Bool) (manifest : OmxManifest) (s : S) : S × RehydrateReport :=
  let (s, importedRows, success) := importTables store read unreadable s 0 manifest.tables
  (s, ⟨manifest.moduleId, manifest.sourceDbPath, success, (manifest.tables.map (·.rowCount)).sum, importedRows⟩)

end

inductive SqlError where
  | operational (text : String)
  | other

structure Connection (Contents : Type) where
  committed : Contents
  pending : Option Contents := none

def Connection.contents {Contents : Type} (conn : Connection Contents) : Contents := conn.pending.getD conn.committed

def Connection.rollback {Contents : Type} (conn : Connection Contents) : Connection Contents := ⟨conn.committed, none⟩

/-- SQLite under a connection of the `sqlite3` module. The text of a table's schema may be any
statement; `DELETE` and `INSERT` open a transaction. -/
structure Sqlite (Contents : Type) where
  executeText : String → Connection Contents → Connection Contents × Option SqlError
  deleteAll : String → Contents → Except SqlError Contents
  insertMany : String → List String → List (List Json) → Contents → Option Contents
  commits : Contents → Bool

section
variable {Contents : Type} (sqlite : Sqlite Contents) (read : OmxTableEntry → Option (List Json))

/-- `manifest.blobs.get("schemas", {}) if manifest.blobs else {}`. -/
def schemasOf (blobs : Json) : Option Json :=
  if blobs.truthy then
    match blobs with
    | .dict blobs => some (if Dict.has blobs "schemas" then Dict.get blobs "schemas" else .dict [])
    | _ => none
  else some (.dict [])

/-- `schema_map.get(table)`: the text that is executed for a table, if there is one; `some none` is a value that raises. -/
def schemaText (schemaMap : Json) (table : String) : Option (Option String) :=
  match schemaMap with
  | .dict schemaMap =>
    match Dict.get schemaMap table with
    | .str schema => if schema = "" then none else some (some schema)
    | schema => if schema.truthy then some none else none
  | _ => some none

def ensureTableSchema (schemaMap : Json) (conn : Connection Contents) (table : String) : Connection Contents × Bool :=
  match schemaText schemaMap table with
  | none => (conn, true)
  | some none => (conn, false)
  | some (some schema) =>
    match sqlite.executeText schema conn with
    | (conn, none) => (conn, true)
    | (conn, some (.operational text)) => (conn, containsText text.toLower "already exists")
    | (conn, some .other) => (conn, false)

def ensureSchemas (schemaMap : Json) (conn : Connection Contents) : List OmxTableEntry → Connection Contents × Bool
  | [] => (conn, true)
  | table :: tables =>
    match ensureTableSchema sqlite schemaMap conn table.name with
    | (conn, true) => ensureSchemas schemaMap conn tables
    | (conn, false) => (conn, false)

/-- The connection afterwards, and the number of rows; `none` when it raises. -/
def replaceTableRows (conn : Connection Contents) (tableName : String) (rows : List Json) : Connection Contents × Option ℕ :=
  match sqlite.deleteAll tableName conn.contents with
  | .error (.operational _) => (conn, if rows.isEmpty then some 0 else none)
  | .error .other => (conn, none)
  | .ok emptied =>
    match rows.mapM asRow with
    | none => ({ conn with pending := some emptied }, none)
    | some [] => ({ conn with pending := some emptied }, some 0)
    | some (first :: rest) =>
      let columns := first.map (·.1)
      let params := (first :: rest).map fun row => columns.map (Dict.get row)
      match sqlite.insertMany tableName columns params emptied with
      | none => ({ conn with pending := some emptied }, none)
      | some filled => ({ conn with pending := some filled }, some params.length)

def replaceTables (unreadable : ℕ → Bool) (conn : Connection Contents) (importedRows : ℕ) :
    List OmxTableEntry → Connection Contents × Option ℕ
  | [] => (conn, some importedRows)
  | table :: tables =>
    match if unreadable 0 then none else read table with
    | none => (conn, none)
    | some rows =>
      match replaceTableRows sqlite conn table.name rows with
      | (conn, none) => (conn, none)
      | (conn, some replaced) => replaceTables (fun n => unreadable (n + 1)) conn (importedRows + replaced) tables

def Connection.commit (conn : Connection Contents) : Option (Connection Contents) :=
  match conn.pending with
  | none => some conn
  | some contents => if sqlite.commits contents then some ⟨contents, none⟩ else none

/-- The body under `with conn` and `conn.commit()`: the connection is rolled back when it raises. -/
def writeTables (unreadable : ℕ → Bool) (ensured : Connection Contents × Bool) (tables : List OmxTableEntry) :
    Connection Contents × Option ℕ :=
  match if ensured.2 then replaceTables sqlite read unreadable ensured.1 0 tables else (ensured.1, none) with
  | (conn, none) => (conn.rollback, none)
  | (conn, some importedRows) =>
    match conn.commit sqlite with
    | none => (conn.rollback, none)
    | some conn => (conn, some importedRows)

/-- The file after the connection is closed, and the imported rows; `none` when it raises. -/
def importOmxTablesSqlite (unreadable : ℕ → Bool) (manifest : OmxManifest) (target : Contents) : Contents × Option ℕ :=
  match schemasOf manifest.blobs with
  | none => (target, none)
  | some schemaMap =>
    let (conn, importedRows) := writeTables sqlite read unreadable
      (ensureSchemas sqlite schemaMap ⟨target, none⟩ manifest.tables) manifest.tables
    (conn.committed, importedRows)

/-- `connects` when the file can be opened, `verifies` when the check after the commit does not raise. -/
def importFile (connects verifies : Bool) (unreadable : ℕ → Bool) (manifest : OmxManifest) (target : Contents) :
    Contents × RehydrateReport :=
  let (target, imported) :=
    if connects then importOmxTablesSqlite sqlite read unreadable manifest target else (target, none)
  (target, ⟨manifest.moduleId, manifest.sourceDbPath, imported.isSome && verifies,
    (manifest.tables.map (·.rowCount)).sum, imported.getD 0⟩)

end

inductive Target (S Contents : Type) where
  | recordStore (store : S)
  | dbPath (file : Contents)

structure Environment (S Contents : Type) where
  store : RecordStore S
  sqlite : Sqlite Contents
  connects : Bool
  verifies : Bool

section
variable {S Contents Bytes : Type} (env : Environment S Contents) (lib : BundleLibrary Bytes)
  (files : String → Option Bytes) (manifest : OmxManifest) (verifyChecksums : Bool)

def importOmx (unreadable : ℕ → Bool) : Target S Contents → Target S Contents × RehydrateReport
  | .recordStore store =>
    let (store, report) := importViaRecordStore env.store (readOmxBundleRows lib files verifyChecksums)
      unreadable manifest store
    (.recordStore store, report)
  | .dbPath file =>
    let (file, report) := importFile env.sqlite (readOmxBundleRows lib files verifyChecksums)
      env.connects env.verifies unreadable manifest file
    (.dbPath file, report)

variable {env lib files manifest verifyChecksums}

theorem importFile_eq {connects verifies : Bool} {read : OmxTableEntry → Option (List Json)} {sqlite : Sqlite Contents}
    {unreadable : ℕ → Bool} {file : Contents} {schemaMap : Json} (hconnects : connects = true)
    (hmap : schemasOf manifest.blobs = some schemaMap) :
    importFile sqlite read connects verifies unreadable manifest file =
      let written := writeTables sqlite read unreadable (ensureSchemas sqlite schemaMap ⟨file, none⟩ manifest.tables) manifest.tables
      (written.1.committed, ⟨manifest.moduleId, manifest.sourceDbPath, written.2.isSome && verifies,
        (manifest.tables.map (·.rowCount)).sum, written.2.getD 0⟩) := by
  simp only [importFile, hconnects, importOmxTablesSqlite, hmap, if_true]

end

end OpenMinion.OmxImports
