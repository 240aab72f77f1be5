import OpenMinion.OmxTransfers

/-!
# Failed imports of OMX bundles

A record store keeps what the exchanges before a failure have done to it; the transaction of a file is rolled back, and
only the texts of the schemas commit by themselves.
-/
namespace OpenMinion.OmxFailures
open JsonValues OmxExports OmxImports OmxTargets OmxTransfers PolicyDecisions RecordStoreWrites TargetTables

section
variable {schema : Schema} {read : OmxTableEntry → Option (List Json)}

/-- Each table before the last one holds the rows that the schema keeps of those it is given, and no other table
loses or gets rows by the exchange; a table that is emptied and then refuses a row was empty and keeps none. -/
def Regains (schema : Schema) (held : Held) : List (String × Option (List Json)) → Prop
  | [] => True
  | (_, none) :: _ => True
  | (table, some rows) :: tables =>
    match schema.delete held table with
    | none => rows = [] → Regains schema held tables
    | some emptied =>
      let given := schema.given false table emptied rows
      if given.2.2 then
        (tables ≠ [] → held table = given.1 ∧ ∀ other, other ≠ table → held other = given.2.1 other) ∧ Regains schema held tables
      else held table = 0 ∧ given.1 = [] ∧ ∀ other, other ≠ table → held other = emptied other

/-- The store shows these rows and has them committed. -/
structure Same (held : Held) (s : Store Contents) : Prop where
  contents : s.contents.held = held
  committed : s.committed.held = held

/-- The store that is left by a loop that raises shows and has committed what was held. -/
def Unchanged (held : Held) (result : Store Contents × ℕ × Bool) : Prop := result.2.2 = false → Same held result.1

theorem given_eq_iff {held emptied : Held} {table : String} (hdelete : schema.delete held table = some emptied) (rows : List Json) :
    (schema.given false table emptied rows).2.1 = held ↔
      held table = (schema.given false table emptied rows).1 ∧
        ∀ other, other ≠ table → held other = (schema.given false table emptied rows).2.1 other := by
  have htable : (schema.given false table emptied rows).2.1 table = (schema.given false table emptied rows).1 := by
    rw [Schema.given_table, Schema.delete_empty hdelete, zero_add]
  constructor
  · intro h
    exact ⟨(congrFun h table).symm.trans htable, fun other _ => (congrFun h other).symm⟩
  · rintro ⟨hrows, hothers⟩
    funext other
    by_cases hother : other = table
    · subst hother
      exact htable.trans hrows.symm
    · exact (hothers other hother).symm

section
variable {store : RecordStore (Store Contents)} {s s' : Store Contents} {table : OmxTableEntry} {rows : List Json} {unreadable : ℕ → Bool}
  (importedRows : ℕ) (tables : List OmxTableEntry)

theorem importTables_fault (h : unreadable 0 = true) :
    importTables store read unreadable s importedRows (table :: tables) = (s, importedRows, false) := by
  rw [importTables, if_pos h]

theorem importTables_refused (h : unreadable 0 = false) (hread : read table = some rows)
    (hreplace : replaceTable store s table.name rows = (s', none)) :
    importTables store read unreadable s importedRows (table :: tables) = (s', importedRows, false) := by
  rw [importTables, if_neg (by simp [h]), hread]
  dsimp only
  rw [hreplace]

theorem importTables_filled {inserted : ℕ} (h : unreadable 0 = false) (hread : read table = some rows)
    (hreplace : replaceTable store s table.name rows = (s', some inserted)) :
    importTables store read unreadable s importedRows (table :: tables) =
      importTables store read (fun n => unreadable (n + 1)) s' (importedRows + inserted) tables := by
  rw [importTables, if_neg (by simp [h]), hread]
  dsimp only
  rw [hreplace]

end

/-- Any reading may fail, that of the first table among them. -/
theorem importTables_cons (store : RecordStore (Store Contents)) {table : OmxTableEntry} {rows : List Json}
    (hread : read table = some rows) (held : Held) (s : Store Contents) (importedRows : ℕ) (tables : List OmxTableEntry) :
    (∀ unreadable, Unchanged held (importTables store read unreadable s importedRows (table :: tables))) ↔
      Same held s ∧ match replaceTable store s table.name rows with
        | (s', none) => Same held s'
        | (s', some inserted) => ∀ unreadable, Unchanged held
            (importTables store read unreadable s' (importedRows + inserted) tables) := by
  constructor
  · intro h
    have hsame := h fun _ => true
    rw [importTables_fault importedRows tables rfl] at hsame
    refine ⟨hsame rfl, ?_⟩
    split
    · next s' hreplace =>
      have hrefused := h fun _ => false
      rw [importTables_refused importedRows tables rfl hread hreplace] at hrefused
      exact hrefused rfl
    · next s' inserted hreplace =>
      -- a fault of a later table is one of the whole import
      intro unreadable
      have hlater := h fun n => n != 0 && unreadable (n - 1)
      rw [importTables_filled importedRows tables rfl hread hreplace] at hlater
      exact hlater
  · rintro ⟨hsame, h⟩ unreadable
    cases hunreadable : unreadable 0 with
    | true =>
      rw [importTables_fault importedRows tables hunreadable]
      exact fun _ => hsame
    | false =>
      split at h
      · next s' hreplace =>
        rw [importTables_refused importedRows tables hunreadable hread hreplace]
        exact fun _ => h
      · next s' inserted hreplace =>
        rw [importTables_filled importedRows tables hunreadable hread hreplace]
        exact h fun n => unreadable (n + 1)

/-- The induction over the tables, of which those before left the store with the rows that it held at first. -/
theorem importTables_iff {held : Held} {s : Store Contents} (hidle : Idle s held) (importedRows : ℕ) (tables : List OmxTableEntry) :
    (∀ unreadable, Unchanged held (importTables (recordStore schema) read unreadable s importedRows tables)) ↔
      Regains schema held (tables.map fun table => (table.name, read table)) := by
  induction tables generalizing s importedRows with
  | nil => exact ⟨fun _ => trivial, fun _ _ hfailed => by cases hfailed⟩
  | cons table tables ih =>
    have hsame : Same held s := ⟨hidle.contents, hidle.committed⟩
    rw [List.map_cons]
    cases hread : read table with
    | none =>
      refine ⟨fun _ => trivial, fun _ unreadable => ?_⟩
      rw [importTables, hread, ite_self]
      exact fun _ => hsame
    | some rows =>
      rw [importTables_cons _ hread, and_iff_right hsame, Regains]
      cases hdelete : schema.delete held table.name with
      | none =>
        obtain ⟨hinserted, hidle'⟩ := replaceTable_kept hidle hdelete rows
        obtain ⟨⟨s', inserted⟩, hreplace⟩ : ∃ replaced, replaceTable (recordStore schema) s table.name rows = replaced := ⟨_, rfl⟩
        rw [hreplace] at hinserted hidle' ⊢
        obtain rfl : inserted = _ := hinserted
        by_cases hrows : rows = []
        · rw [if_pos hrows]
          exact (ih hidle' _).trans ⟨fun h _ => h, fun h => h hrows⟩
        · rw [if_neg hrows]
          exact ⟨fun _ h => absurd h hrows, fun _ => ⟨hidle'.contents, hidle'.committed⟩⟩
      | some emptied =>
        obtain ⟨hsome, hcontents, hflag, hcommitted⟩ := replaceTable_emptied hidle hdelete rows
        have hgiven := given_eq_iff hdelete rows
        generalize replaceTable (recordStore schema) s table.name rows = replaced at hsome hcontents hflag hcommitted ⊢
        obtain ⟨s', inserted⟩ := replaced
        dsimp only at hsome hcontents hflag hcommitted
        cases hfull : (schema.given false table.name emptied rows).2.2 with
        | false =>
          rw [hfull] at hsome hcommitted
          obtain rfl : inserted = none := hsome
          simp only [hfull, Bool.false_eq_true, if_false]
          constructor
          · intro h
            have hempty : emptied = held := hcommitted.symm.trans h.committed
            have hnone : held table.name = 0 := hempty ▸ Schema.delete_empty hdelete
            refine ⟨hnone, ?_, fun other _ => (congrFun hempty other).symm⟩
            have hkept := (hgiven.mp (hcontents.symm.trans h.contents)).1
            rw [hnone] at hkept
            exact (Multiset.coe_eq_zero _).mp hkept.symm
          · rintro ⟨hnone, hkeeps, hothers⟩
            have hempty : emptied = held := by
              funext other
              by_cases hother : other = table.name
              · subst hother
                rw [hnone, Schema.delete_empty hdelete]
              · exact (hothers other hother).symm
            refine ⟨?_, hcommitted.trans hempty⟩
            rw [hcontents, Schema.given_nil _ _ hkeeps, hempty]
        | true =>
          rw [hfull] at hsome hcommitted
          obtain rfl : inserted = some rows.length := hsome
          have hidle' : Idle s' (schema.given false table.name emptied rows).2.1 := ⟨hcontents, hcommitted, hflag⟩
          simp only [hfull, if_true]
          rw [← hgiven]
          cases tables with
          | nil => exact ⟨fun _ => ⟨fun hne => absurd rfl hne, trivial⟩, fun _ _ hfailed => by cases hfailed⟩
          | cons next tables =>
            constructor
            · intro h
              have hfilled : (schema.given false table.name emptied rows).2.1 = held := by
                have hnext := h fun _ => true
                rw [importTables, if_pos rfl] at hnext
                exact hcontents.symm.trans (hnext rfl).contents
              rw [hfilled] at hidle'
              exact ⟨fun _ => hfilled, (ih hidle' _).mp h⟩
            · rintro ⟨hfilled, hrest⟩
              rw [hfilled (by simp)] at hidle'
              exact (ih hidle' _).mpr hrest

end

/-! ## A file -/

section
variable (executeText : Execution) (commits : File → Bool)

/-- The texts one after the other up to the first that raises; a table that exists does not. -/
def executed (conn : Connection File) : List (Option String) → Connection File × Bool
  | [] => (conn, true)
  | none :: _ => (conn, false)
  | some text :: texts =>
    match executeText text conn with
    | (conn, none) => executed conn texts
    | (conn, some (.operational e)) => if containsText e.toLower "already exists" then executed conn texts else (conn, false)
    | (conn, some .other) => (conn, false)

/-- What the texts of the schemas commit by themselves leaves the rows of the file. Where the check after the commit
raises, so do the rows of the bundle. -/
def LeavesFile (connects verifies : Bool) (read : OmxTableEntry → Option (List Json)) (manifest : OmxManifest) (file : File) : Prop :=
  connects = true → ∀ schemaMap, schemasOf manifest.blobs = some schemaMap →
    let ensured := executed executeText ⟨file, none⟩ (manifest.tables.filterMap fun table => schemaText schemaMap table.name)
    ensured.1.committed.held = file.held ∧
      (verifies = false → ensured.2 = true → ∀ written,
        ensured.1.contents.schema.rewritten true ensured.1.contents.held
          (manifest.tables.map fun table => (table.name, read table)) = some written →
        commits ⟨ensured.1.contents.schema, written⟩ = true → written = file.held)

theorem ensureSchemas_eq (schemaMap : Json) (conn : Connection File) (tables : List OmxTableEntry) :
    ensureSchemas (sqliteFile executeText commits) schemaMap conn tables =
      executed executeText conn (tables.filterMap fun table => schemaText schemaMap table.name) := by
  induction tables generalizing conn with
  | nil => rfl
  | cons table tables ih =>
    rw [ensureSchemas, List.filterMap_cons]
    unfold ensureTableSchema
    cases schemaText schemaMap table.name with
    | none => exact ih conn
    | some text =>
      cases text with
      | none => rfl
      | some text =>
        have hexecute : (sqliteFile executeText commits).executeText text conn = executeText text conn := rfl
        dsimp only
        rw [executed, hexecute]
        obtain ⟨conn', error⟩ := executeText text conn
        cases error with
        | none => exact ih conn'
        | some error =>
          cases error with
          | other => rfl
          | operational e =>
            dsimp only
            cases containsText e.toLower "already exists" with
            | false => rfl
            | true => exact ih conn'

variable (read : OmxTableEntry → Option (List Json))

theorem writeTables_fault (ensured : Connection File × Bool) (table : OmxTableEntry) (tables : List OmxTableEntry) :
    (writeTables (sqliteFile executeText commits) read (fun _ => true) ensured (table :: tables)).2 = none := by
  rw [writeTables]
  cases ensured.2 with
  | false => rfl
  | true => rfl

variable {executeText commits} {read : OmxTableEntry → Option (List Json)}

def FileUnchanged (file : File) (result : File × RehydrateReport) : Prop := result.2.success = false → result.1.held = file.held

theorem importFile_iff (connects verifies : Bool) (manifest : OmxManifest) (file : File) :
    (∀ unreadable, FileUnchanged file
      (importFile (sqliteFile executeText commits) read connects verifies unreadable manifest file)) ↔
      LeavesFile executeText commits connects verifies read manifest file := by
  cases hconnects : connects with
  | false =>
    refine ⟨fun _ h => (by cases h), fun _ unreadable _ => ?_⟩
    rw [importFile, if_neg Bool.false_ne_true]
  | true =>
    cases hmap : schemasOf manifest.blobs with
    | none =>
      refine ⟨fun _ _ schemaMap h => ?_, fun _ unreadable _ => ?_⟩
      · rw [hmap] at h
        cases h
      · simp only [importFile, importOmxTablesSqlite, hmap, if_true]
    | some schemaMap =>
      have hspec := fun unreadable => writeTables_spec executeText commits read unreadable
        (ensureSchemas (sqliteFile executeText commits) schemaMap ⟨file, none⟩ manifest.tables) manifest.tables
      rw [LeavesFile]
      simp only [importFile_eq rfl hmap, hmap, forall_const, Option.some.injEq, forall_eq', ← ensureSchemas_eq executeText commits]
      constructor
      · intro hall
        refine ⟨?_, fun hverifies hensured written hwritten hcommits => ?_⟩
        · cases htables : manifest.tables with
          | nil => exact rfl
          | cons table tables =>
            obtain ⟨hrolled, -, -⟩ := hspec fun _ => true
            have hfault := writeTables_fault executeText commits read
              (ensureSchemas (sqliteFile executeText commits) schemaMap ⟨file, none⟩ manifest.tables) table tables
            rw [← htables] at hfault ⊢
            rw [← hrolled hfault]
            refine hall (fun _ => true) ?_
            dsimp only
            rw [hfault]
            rfl
        · obtain ⟨-, hcommitted, hsucceeds⟩ := hspec fun _ => false
          have hsome := hsucceeds (fun _ => rfl) hensured _ (by rw [hwritten]; rfl) hcommits
          obtain ⟨n, hn⟩ := Option.isSome_iff_exists.mp hsome
          obtain ⟨-, hfile, -⟩ := hcommitted n hn
          rw [hwritten] at hfile
          have hheld := congrArg File.held (Option.some.inj hfile)
          dsimp only at hheld
          rw [hheld]
          refine hall (fun _ => false) ?_
          dsimp only
          rw [hverifies, Bool.and_false]
      · rintro ⟨hschemas, hbundle⟩ unreadable hfailed
        obtain ⟨hrolled, hcommitted, -⟩ := hspec unreadable
        dsimp only at hfailed ⊢
        cases hresult : (writeTables (sqliteFile executeText commits) read unreadable
            (ensureSchemas (sqliteFile executeText commits) schemaMap ⟨file, none⟩ manifest.tables) manifest.tables).2 with
        | none =>
          rw [hrolled hresult]
          exact hschemas
        | some n =>
          rw [hresult] at hfailed
          obtain ⟨hensured, hfile, -, hcommits⟩ := hcommitted n hresult
          rcases hcommits with hcommits | hsame
          · obtain ⟨written, hwritten, hcontents⟩ := Option.map_eq_some_iff.mp hfile
            rw [← hcontents] at hcommits ⊢
            exact hbundle hfailed hensured written hwritten hcommits
          · rw [hsame]
            exact hschemas

end

section
variable {Bytes : Type} (schema : Schema) (executeText : Execution)
  (commits : File → Bool) (connects verifies : Bool) (lib : BundleLibrary Bytes) (files : String → Option Bytes) (manifest : OmxManifest)
  (verifyChecksums : Bool)

def SameRows : Target Held File → Target (Store Contents) File → Prop
  | .recordStore held, .recordStore s => Same held s
  | .dbPath file, .dbPath file' => file'.held = file.held
  | _, _ => False

/-- No point of failure alters the target. -/
def Unaltered : Target Held File → Prop
  | .recordStore held =>
    Regains schema held (manifest.tables.map fun table => (table.name, readOmxBundleRows lib files verifyChecksums table))
  | .dbPath file => LeavesFile executeText commits connects verifies (readOmxBundleRows lib files verifyChecksums) manifest file

/-- **A failed import changes nothing, wherever it fails, exactly when the target is unaltered.** -/
theorem failed_import_changes_nothing_iff (target : Target Held File) :
    (∀ unreadable,
      (importOmx (environment schema executeText commits connects verifies) lib files manifest verifyChecksums unreadable
        (start target)).2.success = false →
      SameRows target
        (importOmx (environment schema executeText commits connects verifies) lib files manifest verifyChecksums unreadable
          (start target)).1) ↔
      Unaltered schema executeText commits connects verifies lib files manifest verifyChecksums target := by
  cases target with
  | recordStore held => exact importTables_iff (idle_opened held) 0 manifest.tables
  | dbPath file => exact importFile_iff connects verifies manifest file

end

def plainLibrary : BundleLibrary String where
  sha256 := id
  textLines text := some [text]
  loads text := some (.dict [("v", .str text)])

def damagedManifest : OmxManifest where
  moduleId := "m"
  sourceDbPath := ""
  tables := [⟨"a", "a", 1, "new"⟩, ⟨"b", "b", 1, "other"⟩]

def oldRow : Held := fun table => if table = "a" then {[("v", .text "old")]} else 0

/-- The row of the first table is gone when the checksum of the second does not match. -/
theorem first_table_replaced :
    ¬ (∀ unreadable : ℕ → Bool,
      (importOmx plainEnvironment plainLibrary (fun _ => some "new") damagedManifest true unreadable
        (start (.recordStore oldRow))).2.success = false →
      SameRows (.recordStore oldRow)
        (importOmx plainEnvironment plainLibrary (fun _ => some "new") damagedManifest true unreadable
          (start (.recordStore oldRow))).1) := by
  intro h
  have hrows := congrFun (h (fun _ => false) (by decide +kernel)).contents "a"
  revert hrows
  decide +kernel

end OpenMinion.OmxFailures
