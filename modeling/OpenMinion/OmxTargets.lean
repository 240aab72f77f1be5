import OpenMinion.TargetTables

/-!
# Imports into a record store and into a file

Both exchange the rows of one table after the other. A record store commits each of its calls; a file is written in
one transaction of its connection, which nothing else commits.
-/
namespace OpenMinion.OmxTargets
open JsonValues OmxExports OmxImports RecordStoreWrites TargetTables

/-! ## A record store -/

/-- The tables, and `total_changes` of the connection as far as it counts inserts. -/
structure Contents where
  held : Held
  totalChanges : ℕ := 0

def deletedTable (text : String) : String := String.ofList ((text.toList.drop 13).dropLast)

theorem deletedTable_deleteText (table : String) : deletedTable (deleteText table) = table := by
  rw [deletedTable, deleteText, String.toList_append, String.toList_append, List.append_assoc]
  change String.ofList ((table.toList ++ ['"']).dropLast) = table
  rw [List.dropLast_concat, String.ofList_toList]

/-- No key is deferred to the commit, as none is in the schemas of the modules. -/
def database (schema : Schema) : Database Contents Json where
  prepares _
    | .insert table row => schema.columns table (row.map Prod.fst)
    | .sql text _ => schema.names (deletedTable text)
    | _ => false
  isDmlText _ := true
  execute
    | .insert table row, tables => (schema.insert tables.held table row).map fun held => ⟨held, tables.totalChanges + 1⟩
    | .sql text _, tables => (schema.delete tables.held (deletedTable text)).map fun held => { tables with held := held }
    | _, _ => none
  commits _ := true
  rowCount := Contents.totalChanges
  rowCount_insert _ _ tables _ h := by
    obtain ⟨held, -, rfl⟩ := Option.map_eq_some_iff.mp h
    rfl

/-- A store without an open transaction; no caller of the import opens one. -/
def opened (held : Held) : Store Contents := ⟨⟨held, 0⟩, none, false, []⟩

/-- What the store holds is committed, and its flag is down. -/
structure Idle (s : Store Contents) (held : Held) : Prop where
  contents : s.contents.held = held
  committed : s.committed.held = held
  inTx : s.inTx = false

theorem idle_opened (held : Held) : Idle (opened held) held := ⟨rfl, rfl, rfl⟩

section
variable (schema : Schema) {s : Store Contents} {held : Held}

/-- A call that compiles is committed when it succeeds. -/
theorem perform_reached (call : Call Json) {first : Statement Json} {rest : List (Statement Json)} (hidle : Idle s held)
    (hstatements : call.statements = first :: rest) (hvalid : call.invalid = false)
    (hprepares : (database schema).prepares s.contents first = true) :
    let performed := perform (database schema) s call
    let executed := executeAll (database schema) (first :: rest) s.contents
    performed.2 = executed.2 ∧ performed.1.contents = executed.1 ∧ performed.1.inTx = false ∧
      performed.1.committed.held = if executed.2 then executed.1.held else held := by
  have hdml : isDml (database schema) first = true := by
    cases first <;> rfl
  simp only [perform, hstatements, hvalid, executeOn, hprepares, hdml, List.isEmpty_cons, Bool.false_eq_true, if_false, Bool.not_true,
    Bool.true_or, if_true, hidle.inTx, Bool.not_false, Bool.and_true]
  cases hall : (executeAll (database schema) (first :: rest) s.contents).2 with
  | false => exact ⟨rfl, rfl, rfl, hidle.committed⟩
  | true => exact ⟨rfl, rfl, rfl, rfl⟩

theorem perform_unreached (call : Call Json) {first : Statement Json} {rest : List (Statement Json)}
    (hstatements : call.statements = first :: rest)
    (h : (!call.invalid && (database schema).prepares s.contents first) = false) : perform (database schema) s call = (s, false) := by
  rw [perform, hstatements]
  cases hvalid : call.invalid with
  | true => rfl
  | false =>
    rw [hvalid] at h
    have hprepares : (database schema).prepares s.contents first = false := h
    simp [executeOn, hprepares]

theorem executeAll_insert (table : String) (rows : List (Row Json)) (tables : Contents) :
    (executeAll (database schema) (rows.map (.insert table)) tables).1.held = (schema.taken table tables.held rows).2.1 ∧
      (executeAll (database schema) (rows.map (.insert table)) tables).2 = (schema.taken table tables.held rows).2.2 := by
  induction rows generalizing tables with
  | nil => exact ⟨rfl, rfl⟩
  | cons row rows ih =>
    have hexecute : (database schema).execute (.insert table row) tables =
        (schema.insert tables.held table row).map fun held => ⟨held, tables.totalChanges + 1⟩ := rfl
    rw [List.map_cons, executeAll, hexecute, Schema.insert, Schema.taken]
    cases schema.stores tables.held table row with
    | none => exact ⟨rfl, rfl⟩
    | some kept => exact ih _

/-- The `DELETE` of a table that exists and is not kept by a foreign key is committed; any other leaves the tables. -/
theorem perform_delete (hidle : Idle s held) (table : String) :
    let performed := perform (database schema) s (.executeCount (deleteText table) [])
    performed.2 = (schema.delete held table).isSome ∧ Idle performed.1 ((schema.delete held table).getD held) := by
  have hexecute : (database schema).execute (.sql (deleteText table) []) s.contents =
      (schema.delete held table).map fun emptied => { s.contents with held := emptied } := by
    change (schema.delete s.contents.held (deletedTable (deleteText table))).map _ = _
    rw [deletedTable_deleteText, hidle.contents]
  have hprepares : (database schema).prepares s.contents (.sql (deleteText table) []) = schema.names table := by
    change schema.names (deletedTable (deleteText table)) = _
    rw [deletedTable_deleteText]
  cases hnames : schema.names table with
  | false =>
    have hdelete : schema.delete held table = none := by
      rw [Schema.delete, hnames]
      rfl
    rw [perform_unreached schema (.executeCount (deleteText table) []) rfl (by rw [hprepares, hnames]; rfl), hdelete]
    exact ⟨rfl, hidle⟩
  | true =>
    obtain ⟨hok, hcontents, hflag, hcommitted⟩ :=
      perform_reached schema (.executeCount (deleteText table) []) hidle rfl rfl (hprepares.trans hnames)
    rw [executeAll, hexecute] at hok hcontents hcommitted
    cases hdelete : schema.delete held table with
    | none =>
      rw [hdelete] at hok hcontents hcommitted
      exact ⟨hok, (congrArg Contents.held hcontents).trans hidle.contents, hcommitted, hflag⟩
    | some emptied =>
      rw [hdelete] at hok hcontents hcommitted
      exact ⟨hok, congrArg Contents.held hcontents, hcommitted, hflag⟩

/-- Rows that the table can take are inserted up to the first that is refused, and committed if none is. -/
theorem perform_insertMany (hidle : Idle s held) (table : String) {rows : List (Row Json)} (hrows : rows ≠ []) :
    let performed := perform (database schema) s (.insertMany table rows)
    let given := if schema.compatible false table rows then schema.taken table held (Schema.aligned false rows) else ([], held, false)
    performed.2 = given.2.2 ∧ performed.1.contents.held = given.2.1 ∧ performed.1.inTx = false ∧
      performed.1.committed.held = if given.2.2 then given.2.1 else held := by
  obtain ⟨first, rest, rfl⟩ := List.exists_cons_of_ne_nil hrows
  have hreached : (!(Call.insertMany table (first :: rest)).invalid &&
      (database schema).prepares s.contents (.insert table first)) = schema.compatible false table (first :: rest) := Bool.and_comm _ _
  cases hcompatible : schema.compatible false table (first :: rest) with
  | false =>
    rw [perform_unreached schema (.insertMany table (first :: rest)) rfl (hreached.trans hcompatible)]
    exact ⟨rfl, hidle.contents, hidle.inTx, hidle.committed⟩
  | true =>
    rw [hcompatible, Bool.and_eq_true, Bool.not_eq_true'] at hreached
    obtain ⟨hexecuted, hall⟩ := executeAll_insert schema table (first :: rest) s.contents
    obtain ⟨hok, hcontents, hflag, hcommitted⟩ :=
      perform_reached schema (.insertMany table (first :: rest)) hidle rfl hreached.1 hreached.2
    change _ = (schema.taken table held (first :: rest)).2.2 ∧ _ = (schema.taken table held (first :: rest)).2.1 ∧ _ ∧
      _ = if (schema.taken table held (first :: rest)).2.2 then (schema.taken table held (first :: rest)).2.1 else held
    rw [hidle.contents] at hexecuted hall
    rw [← hexecuted, ← hall]
    exact ⟨hok, congrArg Contents.held hcontents, hflag, hcommitted⟩

end

def recordStore (schema : Schema) : RecordStore (Store Contents) := ⟨perform (database schema)⟩

theorem length_mapM {A B : Type} {f : A → Option B} {items : List A} {results : List B} (h : items.mapM f = some results) :
    results.length = items.length := by
  induction items generalizing results with
  | nil =>
    cases h
    rfl
  | cons item items ih =>
    rw [List.mapM_cons] at h
    obtain ⟨result, -, h⟩ := Option.bind_eq_some_iff.mp h
    obtain ⟨rest, hrest, h⟩ := Option.bind_eq_some_iff.mp h
    cases h
    exact congrArg (· + 1) (ih hrest)

section
variable {schema : Schema} {s : Store Contents} {held : Held}

/-- Without its `DELETE` a table is left as it is. -/
theorem replaceTable_kept (hidle : Idle s held) {table : String} (h : schema.delete held table = none)
    (rows : List Json) :
    (replaceTable (recordStore schema) s table rows).2 = (if rows = [] then some 0 else none) ∧
      Idle (replaceTable (recordStore schema) s table rows).1 held := by
  obtain ⟨hok, hidle'⟩ := perform_delete schema hidle table
  rw [h] at hok hidle'
  have hdelete : (recordStore schema).perform s (.executeCount (deleteText table) []) =
      ((perform (database schema) s (.executeCount (deleteText table) [])).1, false) := Prod.ext rfl hok
  rw [replaceTable, hdelete]
  cases rows with
  | nil => exact ⟨rfl, hidle'⟩
  | cons row rows => exact ⟨rfl, hidle'⟩

/-- An emptied table shows what it takes of its rows, and has it committed when no row is refused. -/
theorem replaceTable_emptied {emptied : Held} (hidle : Idle s held) {table : String}
    (h : schema.delete held table = some emptied) (rows : List Json) :
    let replaced := replaceTable (recordStore schema) s table rows
    let given := schema.given false table emptied rows
    replaced.2 = (if given.2.2 then some rows.length else none) ∧ replaced.1.contents.held = given.2.1 ∧ replaced.1.inTx = false ∧
      replaced.1.committed.held = if given.2.2 then given.2.1 else emptied := by
  obtain ⟨hok, hidle'⟩ := perform_delete schema hidle table
  rw [h, Option.getD_some] at hidle'
  rw [h] at hok
  have hdelete : (recordStore schema).perform s (.executeCount (deleteText table) []) =
      ((perform (database schema) s (.executeCount (deleteText table) [])).1, true) := Prod.ext rfl hok
  rw [replaceTable, hdelete]
  generalize (perform (database schema) s (.executeCount (deleteText table) [])).1 = cleared at hidle'
  cases rows with
  | nil => exact ⟨rfl, hidle'.contents, hidle'.inTx, hidle'.committed⟩
  | cons row rows =>
    obtain ⟨parsed, hrows⟩ : ∃ parsed, List.mapM asRow (row :: rows) = parsed := ⟨_, rfl⟩
    simp only [List.isEmpty_cons, Bool.false_eq_true, if_false, Bool.not_true, Schema.given, hrows]
    cases parsed with
    | none => exact ⟨rfl, hidle'.contents, hidle'.inTx, hidle'.committed⟩
    | some objects =>
      have hobjects : objects ≠ [] := by
        rintro rfl
        cases length_mapM hrows
      obtain ⟨hinserted, hcontents, hflag, hcommitted⟩ := perform_insertMany schema hidle' table hobjects
      refine ⟨?_, hcontents, hflag, hcommitted⟩
      dsimp only
      rw [← hinserted, ← length_mapM hrows]
      rfl

variable (schema)

/-- An exchange that does not raise is committed. -/
theorem replaceTable_spec (hidle : Idle s held) (table : String) (rows : List Json) :
    match schema.exchange false held table rows with
    | none => (replaceTable (recordStore schema) s table rows).2 = none
    | some held => Idle (replaceTable (recordStore schema) s table rows).1 held ∧
        (replaceTable (recordStore schema) s table rows).2 = some rows.length := by
  rw [Schema.exchange]
  cases hdelete : schema.delete held table with
  | none =>
    obtain ⟨hcount, hidle'⟩ := replaceTable_kept hidle hdelete rows
    by_cases hrows : rows = []
    · subst hrows
      exact ⟨hidle', hcount⟩
    · rw [if_neg hrows] at hcount
      simp only [hrows, false_and, if_false]
      exact hcount
  | some emptied =>
    obtain ⟨hsome, hcontents, hflag, hcommitted⟩ := replaceTable_emptied hidle hdelete rows
    generalize replaceTable (recordStore schema) s table rows = replaced at hsome hcontents hflag hcommitted ⊢
    dsimp only
    cases hall : (schema.given false table emptied rows).2.2 with
    | false =>
      rw [hall] at hsome
      exact hsome
    | true =>
      rw [hall] at hsome hcommitted
      exact ⟨⟨hcontents, hcommitted, hflag⟩, hsome⟩

/-- The loop without input faults. -/
theorem importTables_spec (read : OmxTableEntry → Option (List Json)) (hidle : Idle s held) (importedRows : ℕ) (tables : List OmxTableEntry) :
    match schema.rewritten false held (tables.map fun table => (table.name, read table)) with
    | none => (importTables (recordStore schema) read (fun _ => false) s importedRows tables).2.2 = false
    | some held => Idle (importTables (recordStore schema) read (fun _ => false) s importedRows tables).1 held ∧
        (importTables (recordStore schema) read (fun _ => false) s importedRows tables).2 =
          (importedRows + totalRows (tables.map fun table => (table.name, read table)), true) := by
  induction tables generalizing s held importedRows with
  | nil => exact ⟨hidle, rfl⟩
  | cons table tables ih =>
    rw [importTables, if_neg Bool.false_ne_true, List.map_cons, Schema.rewritten]
    cases read table with
    | none => rfl
    | some rows =>
      have hreplace := replaceTable_spec schema hidle table.name rows
      obtain ⟨⟨s', inserted⟩, hreplaced⟩ : ∃ replaced, replaceTable (recordStore schema) s table.name rows = replaced := ⟨_, rfl⟩
      dsimp only [Option.bind_some]
      rw [hreplaced] at hreplace ⊢
      cases hexchange : schema.exchange false held table.name rows with
      | none =>
        rw [hexchange] at hreplace
        cases hreplace
        rfl
      | some held' =>
        rw [hexchange] at hreplace
        obtain ⟨hidle', hinserted⟩ := hreplace
        cases hinserted
        have hcount : importedRows + rows.length + totalRows (tables.map fun table => (table.name, read table)) =
            importedRows + totalRows ((table.name, some rows) :: tables.map fun table => (table.name, read table)) := Nat.add_assoc _ _ _
        have hrest := ih hidle' (importedRows + rows.length)
        rw [hcount] at hrest
        exact hrest

end

/-! ## A file -/

structure File where
  schema : Schema
  held : Held

/-- What a connection does with a text of a bundle's schemas, any of which may change the tables. -/
abbrev Execution := String → Connection File → Connection File × Option SqlError

def sqliteFile (executeText : Execution) (commits : File → Bool) : Sqlite File where
  executeText := executeText
  deleteAll table file :=
    match file.schema.delete file.held table with
    | some held => .ok { file with held := held }
    | none => .error (if file.schema.names table then .other else .operational "no such table")
  insertMany table columns params file :=
    if file.schema.bareColumns table columns then
      let taken := file.schema.taken table file.held (params.map columns.zip)
      if taken.2.2 then some { file with held := taken.2.1 } else none
    else none
  commits := commits

section
variable (executeText : Execution) (commits : File → Bool)

/-- A table that cannot be exchanged leaves the connection with its transaction, which nothing has committed. -/
theorem replaceTableRows_spec (conn : Connection File) (table : String) (rows : List Json) :
    let replaced := replaceTableRows (sqliteFile executeText commits) conn table rows
    replaced.1.committed = conn.committed ∧
      match conn.contents.schema.exchange true conn.contents.held table rows with
      | none => replaced.2 = none
      | some held => replaced.1.contents = { conn.contents with held := held } ∧ replaced.2 = some rows.length := by
  rw [replaceTableRows, sqliteFile, Schema.exchange]
  dsimp only
  cases hdelete : conn.contents.schema.delete conn.contents.held table with
  | none =>
    cases hnames : conn.contents.schema.names table with
    | true => exact ⟨rfl, by simp⟩
    | false =>
      cases rows with
      | nil => exact ⟨rfl, by simp⟩
      | cons row rows => exact ⟨rfl, by simp⟩
  | some emptied =>
    dsimp only
    rw [Schema.given]
    obtain ⟨parsed, hparsed⟩ : ∃ parsed, rows.mapM asRow = parsed := ⟨_, rfl⟩
    rw [hparsed]
    cases parsed with
    | none => exact ⟨rfl, rfl⟩
    | some objects =>
      have hlength := length_mapM hparsed
      cases objects with
      | nil => exact ⟨rfl, rfl, congrArg some hlength⟩
      | cons first rest =>
        have hparams : ((first :: rest).map fun row => (first.map Prod.fst).map (Dict.get row)).map (first.map Prod.fst).zip =
            Schema.aligned true (first :: rest) := by
          rw [List.map_map]
          exact List.map_congr_left fun row _ => List.map_prod_left_eq_zip.symm
        dsimp only
        rw [hparams, List.length_map, hlength]
        cases hcolumns : conn.contents.schema.bareColumns table (first.map Prod.fst) with
        | false =>
          have hrefused : conn.contents.schema.compatible true table (first :: rest) = false := hcolumns
          simp only [hrefused, Bool.false_eq_true, if_false, and_self]
        | true =>
          have haccepted : conn.contents.schema.compatible true table (first :: rest) = true := hcolumns
          simp only [haccepted, if_true]
          generalize conn.contents.schema.taken table emptied _ = taken
          obtain ⟨kept, left, all⟩ := taken
          cases all with
          | false => exact ⟨rfl, rfl⟩
          | true => exact ⟨rfl, rfl, rfl⟩

variable (read : OmxTableEntry → Option (List Json))

/-- Nothing is committed before the end, and what is pending then are the rewritten tables. -/
theorem replaceTables_spec (unreadable : ℕ → Bool) (conn : Connection File) (importedRows : ℕ) (tables : List OmxTableEntry) :
    let replaced := replaceTables (sqliteFile executeText commits) read unreadable conn importedRows tables
    let written := conn.contents.schema.rewritten true conn.contents.held (tables.map fun table => (table.name, read table))
    replaced.1.committed = conn.committed ∧
      (∀ n, replaced.2 = some n → written.map (File.mk conn.contents.schema) = some replaced.1.contents ∧
        n = importedRows + totalRows (tables.map fun table => (table.name, read table))) ∧
      ((∀ n, unreadable n = false) → written.isSome = true → replaced.2.isSome = true) := by
  induction tables generalizing unreadable conn importedRows with
  | nil => exact ⟨rfl, fun n hn => ⟨rfl, (Option.some.inj hn).symm⟩, fun _ _ => rfl⟩
  | cons table tables ih =>
    dsimp only
    rw [replaceTables, List.map_cons, Schema.rewritten]
    cases hunreadable : unreadable 0 with
    | true =>
      refine ⟨rfl, (fun n hn => by cases hn), fun hreadable => ?_⟩
      rw [hreadable] at hunreadable
      cases hunreadable
    | false =>
      rw [if_neg Bool.false_ne_true]
      cases read table with
      | none => exact ⟨rfl, (fun n hn => by cases hn), fun _ h => by cases h⟩
      | some rows =>
        obtain ⟨hcommitted, hexchange⟩ := replaceTableRows_spec executeText commits conn table.name rows
        obtain ⟨⟨conn', inserted⟩, hreplaced⟩ : ∃ replaced,
            replaceTableRows (sqliteFile executeText commits) conn table.name rows = replaced := ⟨_, rfl⟩
        dsimp only [Option.bind_some]
        rw [hreplaced] at hcommitted hexchange ⊢
        cases hexchanged : conn.contents.schema.exchange true conn.contents.held table.name rows with
        | none =>
          rw [hexchanged] at hexchange
          cases hexchange
          exact ⟨hcommitted, (fun n hn => by cases hn), fun _ h => by cases h⟩
        | some held =>
          rw [hexchanged] at hexchange
          obtain ⟨hcontents, hinserted⟩ := hexchange
          cases hinserted
          obtain ⟨hlater, hwritten, hsucceeds⟩ := ih (fun n => unreadable (n + 1)) conn' (importedRows + rows.length)
          rw [hcontents] at hwritten hsucceeds
          refine ⟨hlater.trans hcommitted, fun n hn => ?_, fun hreadable => hsucceeds fun n => hreadable (n + 1)⟩
          obtain ⟨hfile, rfl⟩ := hwritten n hn
          exact ⟨hfile, Nat.add_assoc _ _ _⟩

/-- A transaction that raises is rolled back to what was committed before it; one that does not commits the rewritten
tables, or has nothing to commit. -/
theorem writeTables_spec (unreadable : ℕ → Bool) (ensured : Connection File × Bool) (tables : List OmxTableEntry) :
    let written := writeTables (sqliteFile executeText commits) read unreadable ensured tables
    let file := (ensured.1.contents.schema.rewritten true ensured.1.contents.held
      (tables.map fun table => (table.name, read table))).map (File.mk ensured.1.contents.schema)
    (written.2 = none → written.1.committed = ensured.1.committed) ∧
      (∀ n, written.2 = some n → ensured.2 = true ∧ file = some written.1.committed ∧
        n = totalRows (tables.map fun table => (table.name, read table)) ∧
        (commits written.1.committed = true ∨ written.1.committed = ensured.1.committed)) ∧
      ((∀ n, unreadable n = false) → ensured.2 = true → ∀ contents, file = some contents → commits contents = true →
        written.2.isSome = true) := by
  cases hensured : ensured.2 with
  | false =>
    rw [writeTables, hensured]
    exact ⟨fun _ => rfl, (fun n hn => by cases hn), fun _ h => by cases h⟩
  | true =>
    obtain ⟨hcommitted, hrewritten, hsucceeds⟩ := replaceTables_spec executeText commits read unreadable ensured.1 0 tables
    rw [writeTables, hensured, if_pos rfl]
    generalize replaceTables (sqliteFile executeText commits) read unreadable ensured.1 0 tables = replaced at hcommitted hrewritten hsucceeds ⊢
    obtain ⟨conn, importedRows⟩ := replaced
    cases importedRows with
    | none =>
      refine ⟨fun _ => hcommitted, (fun n hn => by cases hn), fun hreadable _ contents hfile _ => ?_⟩
      obtain ⟨held, hheld, -⟩ := Option.map_eq_some_iff.mp hfile
      cases hsucceeds hreadable (by rw [hheld]; rfl)
    | some importedRows =>
      obtain ⟨hfile, hcount⟩ := hrewritten importedRows rfl
      rw [Nat.zero_add] at hcount
      dsimp only at hcommitted hfile ⊢
      rw [hfile, Connection.commit]
      cases hpending : conn.pending with
      | none =>
        have hcontents : conn.contents = conn.committed := by rw [Connection.contents, hpending]; rfl
        refine ⟨fun _ => hcommitted, fun n hn => ?_, fun _ _ _ _ _ => rfl⟩
        cases hn
        exact ⟨rfl, congrArg some hcontents, hcount, .inr hcommitted⟩
      | some contents =>
        have hcontents : conn.contents = contents := by rw [Connection.contents, hpending]; rfl
        rw [hcontents]
        dsimp only
        by_cases hcommits : (sqliteFile executeText commits).commits contents = true
        · rw [if_pos hcommits]
          refine ⟨(fun h => by cases h), fun n hn => ?_, fun _ _ _ _ _ => rfl⟩
          cases hn
          exact ⟨rfl, rfl, hcount, .inl hcommits⟩
        · rw [if_neg hcommits]
          refine ⟨fun _ => hcommitted, (fun n hn => by cases hn), fun _ _ file hfile h => ?_⟩
          rw [← Option.some.inj hfile] at h
          exact absurd h hcommits

end

def environment (schema : Schema) (executeText : Execution) (commits : File → Bool)
    (connects verifies : Bool) : Environment (Store Contents) File :=
  ⟨recordStore schema, sqliteFile executeText commits, connects, verifies⟩

/-- The target of an import: a record store on the tables, or the file. -/
def start : Target Held File → Target (Store Contents) File
  | .recordStore held => .recordStore (opened held)
  | .dbPath file => .dbPath file

/-- The rows that a target shows. -/
def heldOf : Target (Store Contents) File → Held
  | .recordStore s => s.contents.held
  | .dbPath file => file.held

end OpenMinion.OmxTargets
