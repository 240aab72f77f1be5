import OpenMinion.TransitionRuns

/-!
# Failed writes of the SQLite record store

`RecordStoreSQLite` keeps its own flag beside the transaction of its connection, which stays open when a statement
fails; the store commits after a statement that succeeded outside its blocks.
-/
namespace OpenMinion.RecordStoreWrites
open TransitionRuns

section
variable {Contents Value : Type}

abbrev Row (Value : Type) := List (String × Value)

inductive Statement (Value : Type) where
  | insert (table : String) (row : Row Value)
  | update (table : String) (assigned values : Row Value)
  | delete (table : String) (values : Row Value)
  | sql (text : String) (params : List Value)

structure Database (Contents Value : Type) where
  /-- The statement compiles against the schema. -/
  prepares : Contents → Statement Value → Bool
  /-- The text is an `INSERT`, `UPDATE` or `DELETE`. -/
  isDmlText : String → Bool
  /-- The contents after the statement; `none` when it is rejected. -/
  execute : Statement Value → Contents → Option Contents
  /-- No deferred constraint is violated. -/
  commits : Contents → Bool
  rowCount : Contents → ℕ
  rowCount_insert : ∀ table row contents contents', execute (.insert table row) contents = some contents' →
    rowCount contents' = rowCount contents + 1

inductive Call (Value : Type) where
  | insert (table : String) (row : Row Value)
  | insertMany (table : String) (rows : List (Row Value))
  | executeCount (text : String) (params : List Value)
  | updateRows (table : String) (assigned values : Row Value)
  | deleteRows (table : String) (values : Row Value)

/-- The committed contents, those of the open transaction of the connection, the store's own flag,
and the blocks that are open, with whether each of them is the outermost. -/
structure Store (Contents : Type) where
  committed : Contents
  pending : Option Contents := none
  inTx : Bool := false
  blocks : List Bool := []

def Store.contents (s : Store Contents) : Contents := s.pending.getD s.committed

/-- `set(row.keys()) != first_set`. -/
def sameColumns (first row : Row Value) : Bool :=
  (first.all fun entry => row.any (·.1 == entry.1)) && row.all fun entry => first.any (·.1 == entry.1)

def Call.invalid : Call Value → Bool
  | .insertMany _ (first :: rows) => rows.any fun row => !sameColumns first row
  | _ => false

/-- The statements of a call; the rows of `executemany` are one statement each. -/
def Call.statements : Call Value → List (Statement Value)
  | .insert table row => [.insert table row]
  | .insertMany table rows => rows.map (.insert table)
  | .executeCount text params => [.sql text params]
  | .updateRows table assigned values => [.update table assigned values]
  | .deleteRows table values => [.delete table values]

variable (db : Database Contents Value)

def isDml : Statement Value → Bool
  | .sql text _ => db.isDmlText text
  | _ => true

def executeAll : List (Statement Value) → Contents → Contents × Bool
  | [], contents => (contents, true)
  | statement :: statements, contents =>
    match db.execute statement contents with
    | some contents => executeAll statements contents
    | none => (contents, false)

/-- `_conn.execute` and `_conn.executemany`: the store afterwards, and whether the call succeeded. -/
def executeOn (s : Store Contents) (statements : List (Statement Value)) : Store Contents × Bool :=
  match statements with
  | [] => (s, true)
  | first :: _ =>
    if !db.prepares s.contents first then (s, false)
    else
      let (contents, ok) := executeAll db statements s.contents
      if isDml db first || s.pending.isSome then ({ s with pending := some contents }, ok)
      else ({ s with committed := contents }, ok)

/-- `_conn.commit()`. -/
def commitConnection (s : Store Contents) : Store Contents × Bool :=
  match s.pending with
  | none => (s, true)
  | some contents => if db.commits contents then ({ s with committed := contents, pending := none }, true) else (s, false)

def perform (s : Store Contents) (call : Call Value) : Store Contents × Bool :=
  if call.statements.isEmpty then (s, true)
  else if call.invalid then (s, false)
  else
    let (executed, ok) := executeOn db s call.statements
    if ok && !s.inTx then commitConnection db executed else (executed, ok)

/-- Entering `transaction()`. -/
def enter (s : Store Contents) : Store Contents × Bool :=
  if s.inTx then ({ s with blocks := false :: s.blocks }, true)
  else match s.pending with
    -- cannot start a transaction within a transaction
    | some _ => (s, false)
    | none => ({ s with pending := some s.committed, inTx := true, blocks := true :: s.blocks }, true)

def leave (s : Store Contents) (completed : Bool) : Store Contents × Bool :=
  match s.blocks with
  | [] => (s, true)
  | false :: blocks => ({ s with blocks := blocks }, completed)
  | true :: blocks =>
    let left := { s with blocks := blocks }
    if !s.inTx then (left, completed)
    else if completed then
      match commitConnection db left with
      | (committed, true) => ({ committed with inTx := false }, true)
      | (failed, false) => (failed, false)
    else ({ left with pending := none, inTx := false }, false)

inductive Action (Value : Type) where
  | call (call : Call Value)
  | enter
  | leave (completed : Bool)

def act (s : Store Contents) : Action Value → Store Contents × Bool
  | .call call => perform db s call
  | .enter => enter s
  | .leave completed => leave db s completed

def step (s : Store Contents) (action : Action Value) : Store Contents := (act db s action).1

def Call.isInsertMany : Call Value → Bool
  | .insertMany .. => true
  | _ => false

/-- A block that begins its own transaction can be entered. -/
def CanEnter (s : Store Contents) : Prop := (enter s).2 = true ∧ (enter s).1.blocks = true :: s.blocks

/-- A failed call outside the blocks, or a failed `insert_many` in a block, leaves the contents. A block that fails
leaves what was committed before it, and every block can be entered. -/
def LeavesNoTrace (s : Store Contents) (action : Action Value) : Prop :=
  match action with
  | .call call => (perform db s call).2 = false → (s.blocks = [] ∨ call.isInsertMany = true) →
      (perform db s call).1.committed = s.committed ∧ (perform db s call).1.contents = s.contents ∧
        (s.blocks = [] → CanEnter (perform db s call).1)
  | .enter => (enter s).2 = true
  | .leave completed => s.blocks = [true] → (leave db s completed).2 = false →
      (leave db s completed).1.committed = s.committed ∧ (leave db s completed).1.contents = s.committed ∧
        CanEnter (leave db s completed).1

/-- The call reaches the database: it has rows, they are valid and the statement compiles. -/
def Reaches (s : Store Contents) (call : Call Value) : Prop :=
  call.invalid = false ∧ ∃ first rest, call.statements = first :: rest ∧ db.prepares s.contents first = true

/-- Outside the blocks no write is rejected or refused at the commit; in a block no `insert_many` is rejected after
its first row, and the block itself can be committed. -/
def RejectsNothing (s : Store Contents) (action : Action Value) : Prop :=
  match action with
  | .call call => Reaches db s call →
      (s.blocks = [] → (∀ statement ∈ call.statements, isDml db statement = true) →
        (executeAll db call.statements s.contents).2 = true ∧ db.commits (executeAll db call.statements s.contents).1 = true) ∧
      (s.blocks ≠ [] → call.isInsertMany = true → (executeAll db call.statements s.contents).2 = true ∨
        ∀ first ∈ call.statements.head?, db.execute first s.contents = none)
  | .enter => True
  | .leave completed => s.blocks = [true] → completed = true → db.commits s.contents = true

/-- The connection has a transaction open exactly inside the blocks, the outermost of which began it. -/
inductive Clean : Store Contents → Prop where
  | outside (committed : Contents) : Clean ⟨committed, none, false, []⟩
  | inside (committed contents : Contents) (nested : ℕ) :
      Clean ⟨committed, some contents, true, List.replicate nested false ++ [true]⟩

variable {db}

theorem canEnter_outside (committed : Contents) : CanEnter (⟨committed, none, false, []⟩ : Store Contents) := ⟨rfl, rfl⟩

theorem not_canEnter_leftover (committed contents : Contents) (blocks : List Bool) :
    ¬ CanEnter (⟨committed, some contents, false, blocks⟩ : Store Contents) := nofun

theorem rowCount_executeAll (table : String) (rows : List (Row Value)) (contents : Contents) :
    db.rowCount contents ≤ db.rowCount (executeAll db (rows.map (.insert table)) contents).1 := by
  induction rows generalizing contents with
  | nil => exact Nat.le_refl _
  | cons row rows ih =>
    rw [List.map_cons, executeAll]
    cases hexecute : db.execute (.insert table row) contents with
    | none => exact Nat.le_refl _
    | some inserted =>
      have hcount := db.rowCount_insert table row contents inserted hexecute
      have hrest := ih inserted
      dsimp only
      omega

theorem first_rejected {table : String} {row : Row Value} {rows : List (Row Value)} {contents : Contents}
    (h : (executeAll db ((row :: rows).map (.insert table)) contents).1 = contents) :
    db.execute (.insert table row) contents = none := by
  rw [List.map_cons, executeAll] at h
  cases hexecute : db.execute (.insert table row) contents with
  | none => rfl
  | some inserted =>
    rw [hexecute] at h
    have hcount := db.rowCount_insert table row contents inserted hexecute
    have hrest := @rowCount_executeAll Contents Value db table rows inserted
    dsimp only at h
    rw [h] at hrest
    omega

theorem executeAll_single (statement : Statement Value) (contents : Contents)
    (h : (executeAll db [statement] contents).2 = false) : (executeAll db [statement] contents).1 = contents := by
  simp only [executeAll] at h ⊢
  cases hexecute : db.execute statement contents with
  | none => rfl
  | some contents' =>
    rw [hexecute] at h
    cases h

theorem Call.kind (call : Call Value) : (∀ statement ∈ call.statements, isDml db statement = true) ∨
    ∃ statement, call.statements = [statement] ∧ isDml db statement = false := by
  cases call with
  | executeCount text params =>
    cases htext : db.isDmlText text with
    | false => exact .inr ⟨_, rfl, htext⟩
    | true =>
      refine .inl fun statement hstatement => ?_
      rw [List.mem_singleton.mp hstatement]
      exact htext
  | insert | updateRows | deleteRows =>
    refine .inl fun statement hstatement => ?_
    rw [List.mem_singleton.mp hstatement]
    rfl
  | insertMany table rows =>
    refine .inl fun statement hstatement => ?_
    obtain ⟨row, _, rfl⟩ := List.mem_map.mp hstatement
    rfl

theorem perform_of_not_reaches {s : Store Contents} {call : Call Value} (h : ¬ Reaches db s call) :
    (perform db s call).1 = s := by
  rw [perform]
  cases hstatements : call.statements with
  | nil => rfl
  | cons first rest =>
    rw [if_neg (by simp)]
    by_cases hinvalid : call.invalid = true
    · rw [if_pos hinvalid]
    · have hprepares : db.prepares s.contents first = false := by
        by_contra hne
        exact h ⟨by simpa using hinvalid, first, rest, hstatements, by simpa using hne⟩
      rw [if_neg hinvalid]
      simp [executeOn, hprepares]

section
variable {committed contents : Contents} {call : Call Value} {blocks : List Bool}

theorem perform_outside (h : Reaches db ⟨committed, none, false, []⟩ call)
    (hdml : ∀ statement ∈ call.statements, isDml db statement = true) :
    perform db ⟨committed, none, false, []⟩ call =
      if (executeAll db call.statements committed).2 = true ∧ db.commits (executeAll db call.statements committed).1 = true
      then (⟨(executeAll db call.statements committed).1, none, false, []⟩, true)
      else (⟨committed, some (executeAll db call.statements committed).1, false, []⟩, false) := by
  obtain ⟨hinvalid, first, rest, hstatements, hprepares⟩ := h
  rw [hstatements] at hdml
  simp only [perform, executeOn, hstatements, hinvalid, hprepares, hdml first List.mem_cons_self]
  cases hok : (executeAll db (first :: rest) committed).2 with
  | false => simp [Store.contents, hok]
  | true =>
    cases hcommits : db.commits (executeAll db (first :: rest) committed).1 <;>
      simp [Store.contents, hok, hcommits, commitConnection]

theorem perform_outside_other {statement : Statement Value} (h : Reaches db ⟨committed, none, false, []⟩ call)
    (hstatements : call.statements = [statement]) (hother : isDml db statement = false) :
    perform db ⟨committed, none, false, []⟩ call =
      (⟨(executeAll db [statement] committed).1, none, false, []⟩, (executeAll db [statement] committed).2) := by
  obtain ⟨hinvalid, first, rest, hfirst, hprepares⟩ := h
  obtain ⟨rfl, rfl⟩ : statement = first ∧ [] = rest := List.cons.inj (hstatements.symm.trans hfirst)
  simp only [perform, executeOn, hstatements, hinvalid, hprepares, hother]
  cases hok : (executeAll db [statement] committed).2 <;> simp [Store.contents, hok, commitConnection]

theorem perform_inside (h : Reaches db ⟨committed, some contents, true, blocks⟩ call) :
    perform db ⟨committed, some contents, true, blocks⟩ call =
      (⟨committed, some (executeAll db call.statements contents).1, true, blocks⟩,
        (executeAll db call.statements contents).2) := by
  obtain ⟨hinvalid, first, rest, hfirst, hprepares⟩ := h
  have hprepares : db.prepares contents first = true := hprepares
  simp [perform, executeOn, hfirst, hinvalid, hprepares, Store.contents]

end

theorem inside_ne_nil (nested : ℕ) : List.replicate nested false ++ [true] ≠ [] := by simp

section
variable {committed contents : Contents} {call : Call Value}

theorem leavesNoTrace_outside (hreaches : Reaches db ⟨committed, none, false, []⟩ call)
    (hdml : ∀ statement ∈ call.statements, isDml db statement = true) :
    LeavesNoTrace db ⟨committed, none, false, []⟩ (.call call) ↔
      (executeAll db call.statements committed).2 = true ∧ db.commits (executeAll db call.statements committed).1 = true := by
  simp only [LeavesNoTrace, perform_outside hreaches hdml]
  constructor
  · intro h
    by_contra hnot
    rw [if_neg hnot] at h
    exact not_canEnter_leftover _ _ _ ((h rfl (.inl trivial)).2.2 trivial)
  · intro h hfailed
    rw [if_pos h] at hfailed
    cases hfailed

theorem leavesNoTrace_other {statement : Statement Value} (hreaches : Reaches db ⟨committed, none, false, []⟩ call)
    (hstatements : call.statements = [statement]) (hother : isDml db statement = false) :
    LeavesNoTrace db ⟨committed, none, false, []⟩ (.call call) := by
  simp only [LeavesNoTrace, perform_outside_other hreaches hstatements hother]
  intro hfailed _
  rw [executeAll_single _ _ hfailed]
  exact ⟨rfl, rfl, fun _ => canEnter_outside committed⟩

theorem leavesNoTrace_inside {nested : ℕ}
    (hreaches : Reaches db ⟨committed, some contents, true, List.replicate nested false ++ [true]⟩ call) :
    LeavesNoTrace db ⟨committed, some contents, true, List.replicate nested false ++ [true]⟩ (.call call) ↔
      (call.isInsertMany = true → (executeAll db call.statements contents).2 = true ∨
        ∀ first ∈ call.statements.head?, db.execute first contents = none) := by
  simp only [LeavesNoTrace, perform_inside hreaches, Store.contents, Option.getD_some]
  constructor
  · intro h hmany
    by_contra hnot
    obtain ⟨hfailed, hfirst⟩ := not_or.mp hnot
    obtain ⟨-, hcontents, -⟩ := h (by simpa using hfailed) (.inr hmany)
    refine hfirst fun first hhead => ?_
    cases call with
    | insertMany table rows =>
      cases rows with
      | nil => cases hhead
      | cons row rows =>
        cases hhead
        exact first_rejected hcontents
    | insert | executeCount | updateRows | deleteRows => cases hmany
  · intro h hfailed hwhere
    have hmany := hwhere.resolve_left (inside_ne_nil nested)
    refine ⟨trivial, ?_, fun hblocks => absurd hblocks (inside_ne_nil nested)⟩
    rcases h hmany with hok | hfirst
    · rw [hok] at hfailed
      cases hfailed
    · cases hstatements : call.statements with
      | nil => rfl
      | cons first rest => simp [executeAll, hfirst first (by simp [hstatements])]

end

theorem clean_leavesNoTrace_iff {s : Store Contents} (hs : Clean s) (action : Action Value) :
    LeavesNoTrace db s action ↔ RejectsNothing db s action := by
  cases action with
  | enter => cases hs <;> exact ⟨fun _ => trivial, fun _ => rfl⟩
  | leave completed =>
    cases hs with
    | outside committed => exact ⟨fun _ => nofun, fun _ => nofun⟩
    | inside committed contents nested =>
      cases nested with
      | succ nested =>
        refine ⟨fun _ h => ?_, fun _ h => ?_⟩ <;> simp [List.replicate_succ] at h
      | zero =>
        cases completed <;> cases hcommits : db.commits contents <;>
          simp [LeavesNoTrace, RejectsNothing, leave, commitConnection, hcommits, Store.contents, CanEnter, enter]
  | call call =>
    by_cases hreaches : Reaches db s call
    · cases hs with
      | outside committed =>
        rcases @Call.kind Contents Value db call with hdml | ⟨statement, hstatement, hother⟩
        · rw [leavesNoTrace_outside hreaches hdml]
          exact ⟨fun h _ => ⟨fun _ _ => h, fun hne => absurd rfl hne⟩, fun h => (h hreaches).1 rfl hdml⟩
        · refine ⟨fun _ _ => ⟨fun _ hdml => ?_, fun hne => absurd rfl hne⟩, fun _ => leavesNoTrace_other hreaches hstatement hother⟩
          have hall := hdml statement (by simp [hstatement])
          rw [hother] at hall
          cases hall
      | inside committed contents nested =>
        rw [leavesNoTrace_inside hreaches]
        exact ⟨fun h _ => ⟨fun hblocks => absurd hblocks (inside_ne_nil nested), fun _ => h⟩,
          fun h => (h hreaches).2 (inside_ne_nil nested)⟩
    · refine ⟨fun _ h => absurd h hreaches, fun _ _ _ => ?_⟩
      rw [perform_of_not_reaches hreaches]
      refine ⟨rfl, rfl, fun hblocks => ?_⟩
      cases hs with
      | outside committed => exact canEnter_outside committed
      | inside committed contents nested => exact absurd hblocks (inside_ne_nil nested)

theorem clean_step {s : Store Contents} (hs : Clean s) {action : Action Value} (h : RejectsNothing db s action) :
    Clean (step db s action) := by
  cases action with
  | enter =>
    cases hs with
    | outside committed => exact .inside committed committed 0
    | inside committed contents nested => exact .inside committed contents (nested + 1)
  | leave completed =>
    cases hs with
    | outside committed => exact .outside committed
    | inside committed contents nested =>
      cases nested with
      | succ nested => exact .inside committed contents nested
      | zero =>
        cases completed with
        | false => exact .outside committed
        | true =>
          have hcommits : db.commits contents = true := h rfl rfl
          simp only [step, act, leave, commitConnection, List.replicate_zero, List.nil_append, hcommits]
          exact .outside contents
  | call call =>
    rw [step, act]
    by_cases hreaches : Reaches db s call
    · cases hs with
      | outside committed =>
        rcases @Call.kind Contents Value db call with hdml | ⟨statement, hstatement, hother⟩
        · have haccepted := (h hreaches).1 rfl hdml
          simp only [Store.contents, Option.getD_none] at haccepted
          rw [perform_outside hreaches hdml, if_pos haccepted]
          exact .outside _
        · rw [perform_outside_other hreaches hstatement hother]
          exact .outside _
      | inside committed contents nested =>
        rw [perform_inside hreaches]
        exact .inside committed _ nested
    · rw [perform_of_not_reaches hreaches]
      exact hs

/-- **Along a run every failure leaves no trace exactly when no write is rejected.** -/
theorem failures_leave_no_trace_iff (db : Database Contents Value) (contents : Contents) (actions : List (Action Value)) :
    Guarded (step db) (LeavesNoTrace db) ⟨contents, none, false, []⟩ actions ↔
      Guarded (step db) (RejectsNothing db) ⟨contents, none, false, []⟩ actions := by
  have hiff : ∀ s action, Clean s → (LeavesNoTrace db s action ↔ RejectsNothing db s action) :=
    fun _ action hs => clean_leavesNoTrace_iff hs action
  have hstep : ∀ s action, Clean s → LeavesNoTrace db s action → Clean (step db s action) :=
    fun _ action hs h => clean_step hs ((clean_leavesNoTrace_iff hs action).mp h)
  exact guarded_iff hstep hiff (.outside contents) actions

end

def keyTable : Database (List ℕ) ℕ where
  prepares _ _ := true
  isDmlText _ := true
  execute
    | .insert _ [(_, key)], keys => if key ∈ keys then none else some (keys ++ [key])
    | _, _ => none
  commits _ := true
  rowCount := List.length
  rowCount_insert := by
    intro table row keys keys' h
    split at h
    · split at h
      · cases h
      · cases h
        simp
    · cases h

def repeatedKey : Action ℕ := .call (.insertMany "t" [[("k", 1)], [("k", 1)]])

/-- The second row of an `insert_many` is rejected, and the next insert commits the first. -/
theorem rejected_row_committed : ¬ (∀ actions, Guarded (step keyTable) (LeavesNoTrace keyTable) ⟨[], none, false, []⟩ actions) ∧
    (act keyTable ⟨[], none, false, []⟩ repeatedKey).2 = false ∧
    (run (step keyTable) ⟨[], none, false, []⟩ [repeatedKey, .call (.insert "t" [("k", 2)])]).committed = [1, 2] := by
  refine ⟨fun h => ?_, by decide, by decide⟩
  cases h [repeatedKey] with
  | cons head _ =>
    obtain ⟨-, hcontents, -⟩ := head (by decide) (.inl rfl)
    revert hcontents
    decide

end OpenMinion.RecordStoreWrites
