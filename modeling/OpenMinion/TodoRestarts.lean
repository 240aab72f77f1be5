import OpenMinion.JsonValues
import OpenMinion.TodoStore

/-!
# Restarts of the todo store

The file names the sessions in the order of their ids. A store that is opened again has the plans in the order of their
last use exactly when the calls kept that order.
-/
namespace OpenMinion.TodoRestarts
open JsonValues KeyedTables TodoStore TransitionRuns

def statusText : TodoItemStatus → String
  | .todo => "todo"
  | .inProgress => "in_progress"
  | .done => "done"
  | .blocked => "blocked"

def itemPayload (item : TodoItem) : Json :=
  .dict [("created_at", .float item.createdAt), ("index", .int item.index), ("status", .str (statusText item.status)),
    ("text", .str item.text), ("updated_at", .float item.updatedAt)]

def todoToPayload (todo : Todo) : Dict :=
  [("created_at", .float todo.createdAt), ("items", .list (todo.items.map itemPayload)), ("session_id", .str todo.sessionId),
    ("updated_at", .float todo.updatedAt)]

/-- What `_save` writes. -/
def savedFile (todos : List Todo) : Dict :=
  [("sessions", .dict ((payload todos).map fun todo => (todo.sessionId, .dict (todoToPayload todo)))), ("version", .int 1)]

inductive LoadError where
  | payload
  | sessions
  /-- A number that is none, or not a finite one, which no clock tells. -/
  | number
  deriving DecidableEq

structure Library where
  /-- `str(value)` of a value that is not a string. -/
  strOf : Json → String
  /-- `float(text)`. -/
  floatOf : String → Option ℚ

section
variable (lib : Library)

/-- `str(value or default)`. -/
def textOr (default : String) (value : Json) : String :=
  if value.truthy then
    match value with
    | .str text => text
    | value => lib.strOf value
  else default

/-- `float(value or 0.0)`. -/
def floatOr (value : Json) : Except LoadError ℚ :=
  if value.truthy then
    match value with
    | .str text => (lib.floatOf text).elim (.error .number) .ok
    | value => value.number.elim (.error .number) .ok
  else .ok 0

def coerceStatus (value : Json) : TodoItemStatus := (TodoItemStatus.ofText (textOr lib "todo" value)).getD .todo

def itemFields (offset : ℕ) (raw : Dict) : Except LoadError TodoItem := do
  .ok {
    index := offset
    text := textOr lib "" (raw.get "text")
    status := coerceStatus lib (raw.get "status")
    createdAt := ← floatOr lib (raw.get "created_at")
    updatedAt := ← floatOr lib (raw.get "updated_at") }

def itemFromPayload (offset : ℕ) : Json → Except LoadError (Option TodoItem)
  | .dict raw => some <$> itemFields lib offset raw
  | _ => .ok none

def itemsOf : Json → Except LoadError (List Json)
  | .list items => .ok items
  | .dict _ | .str _ => .ok []
  | value => if value.truthy then .error .payload else .ok []

def todoFromPayload (sessionId : String) (raw : Dict) : Except LoadError Todo := do
  let rawItems ← itemsOf (raw.get "items")
  let items ← (rawItems.mapIdx fun offset item => itemFromPayload lib offset item).mapM id
  .ok {
    sessionId := textOr lib sessionId (raw.get "session_id")
    items := items.filterMap id
    createdAt := ← floatOr lib (raw.get "created_at")
    updatedAt := ← floatOr lib (raw.get "updated_at") }

def loadSession (todos : List Todo) (session : String × Json) : Except LoadError (List Todo) :=
  match session.2 with
  | .dict raw => do .ok (upsertRow Todo.sessionId (← todoFromPayload lib session.1 raw) todos)
  | _ => .ok todos

/-- `payload.get("sessions", {})`. -/
def sessionsOf (file : Dict) : Json := if file.has "sessions" then file.get "sessions" else .dict []

/-- `_load` of a store without plans; without a file nothing is read. -/
def load (caps : TodoCaps) : Option Json → Except LoadError (List Todo)
  | none => .ok []
  | some (.dict file) =>
    match sessionsOf file with
    | .dict sessions => do .ok (evictOverCap caps (← sessions.foldlM (loadSession lib) []))
    | _ => .error .sessions
  | some _ => .error .payload

end

structure FileStore where
  todos : List Todo
  file : Option Json

def sessionOf : TodoOp → String
  | .setPlan sessionId _ _ | .addItem sessionId _ _ _ | .updateItemStatus sessionId _ _ _ | .clearPlan sessionId
  | .getPlan sessionId => sessionId

/-- A call: its error, or the plan of the session after it, of which `add_item` and
`update_item_status` return an item. A call that raises saves nothing. -/
def perform (caps : TodoCaps) (s : FileStore) (op : TodoOp) : Except TodoError (Option Todo) × FileStore :=
  match op.change caps s.todos with
  | .error e => (.error e, s)
  | .ok todos =>
    (.ok (lookup Todo.sessionId (sessionOf op) todos),
      { todos, file := if op.saves then some (.dict (savedFile todos)) else s.file })

def step (caps : TodoCaps) (s : FileStore) (op : TodoOp) : FileStore := (perform caps s op).2

/-- The store that is opened on the file has the same plans in the same order, so that it answers
all later calls alike and keeps the same plans. -/
def Survives (lib : Library) (caps : TodoCaps) (s : FileStore) : Prop :=
  ∃ todos, load lib caps s.file = .ok todos ∧ todos = s.todos ∧
    ∀ later, outcomes (perform caps) ⟨todos, s.file⟩ later = outcomes (perform caps) s later ∧
      (run (step caps) ⟨todos, s.file⟩ later).todos = (run (step caps) s later).todos

/-- The ids ascend, and that of the session is after them. -/
def EndsWith (todos : List Todo) (sessionId : String) : Prop :=
  (todos.Pairwise fun a b => a.sessionId ≤ b.sessionId) ∧ ∀ t ∈ todos, t.sessionId ≤ sessionId

def others (todos : List Todo) (sessionId : String) : List Todo := deleteWhere (fun t => t.sessionId = sessionId) todos

/-- A read moves no plan. A call that writes a plan leaves it after all others in the order of the ids; one that
removes a plan leaves the others in this order. -/
def Keeps (caps : TodoCaps) (s : FileStore) : TodoOp → Prop
  | .getPlan sessionId => ∀ todo ∈ lookup Todo.sessionId sessionId s.todos, s.todos.getLast? = some todo
  | .setPlan sessionId items _ => items.length ≤ caps.maxItemsPerPlan →
      EndsWith ((others s.todos sessionId).drop ((others s.todos sessionId).length + 1 - caps.maxSessions)) sessionId
  | .addItem sessionId text position now =>
      (addItem caps s.todos sessionId text position now).isOk → EndsWith (others s.todos sessionId) sessionId
  | .updateItemStatus sessionId index status now =>
      (updateItemStatus s.todos sessionId index status now).isOk → EndsWith (others s.todos sessionId) sessionId
  | .clearPlan sessionId => (others s.todos sessionId).Pairwise fun a b => a.sessionId ≤ b.sessionId

def Indexed (todo : Todo) : Prop := ∀ (i : ℕ) (item : TodoItem), todo.items[i]? = some item → item.index = i

/-- One plan for each session, with its items in their places. -/
structure WellFormed (todos : List Todo) : Prop where
  unique : UniqueKey Todo.sessionId todos
  indexed : ∀ todo ∈ todos, Indexed todo

variable {lib : Library} {caps : TodoCaps}

theorem floatOr_float (q : ℚ) : floatOr lib (.float q) = .ok q := by
  by_cases hq : q = 0
  · simp [floatOr, Json.truthy, hq]
  · simp [floatOr, Json.truthy, hq, Json.number]

theorem textOr_str (text : String) : textOr lib text (.str text) = text := by
  by_cases htext : text = ""
  · simp [textOr, Json.truthy, htext]
  · simp [textOr, Json.truthy, htext]

theorem textOr_empty_str (text : String) : textOr lib "" (.str text) = text := by
  by_cases htext : text = ""
  · simp [textOr, Json.truthy, htext]
  · simp [textOr, Json.truthy, htext]

theorem coerceStatus_text (status : TodoItemStatus) : coerceStatus lib (.str (statusText status)) = status := by
  cases status <;> simp [coerceStatus, textOr, statusText, Json.truthy, TodoItemStatus.ofText]

theorem itemFromPayload_itemPayload (offset : ℕ) (item : TodoItem) :
    itemFromPayload lib offset (itemPayload item) = .ok (some { item with index := offset }) := by
  have hcreated : floatOr lib (.float item.createdAt) = .ok item.createdAt := floatOr_float _
  have hupdated : floatOr lib (.float item.updatedAt) = .ok item.updatedAt := floatOr_float _
  have hstatus : coerceStatus lib (.str (statusText item.status)) = item.status := coerceStatus_text _
  have htext : textOr lib "" (.str item.text) = item.text := textOr_empty_str _
  simp [itemFromPayload, itemPayload, itemFields, Dict.get, hcreated, hupdated, hstatus, htext, bind, Except.bind, Functor.map,
    Except.map]

theorem mapM_ok {A : Type} (items : List A) : (items.map Except.ok).mapM (id : Except LoadError A → Except LoadError A) = .ok items := by
  induction items with
  | nil => rfl
  | cons item rest ih =>
    rw [List.map_cons, List.mapM_cons, ih]
    rfl

theorem todoFromPayload_todoToPayload {todo : Todo} (h : Indexed todo) :
    todoFromPayload lib todo.sessionId (todoToPayload todo) = .ok todo := by
  have hitems : ((todo.items.map itemPayload).mapIdx fun offset item => itemFromPayload lib offset item) =
      (todo.items.map some).map Except.ok := by
    apply List.ext_getElem?
    intro i
    rw [List.getElem?_mapIdx, List.getElem?_map, List.getElem?_map, List.getElem?_map]
    cases hitem : todo.items[i]? with
    | none => rfl
    | some item =>
      have hindex : ({ item with index := i } : TodoItem) = item := by rw [← h i item hitem]
      simp only [Option.map_some, itemFromPayload_itemPayload, hindex]
  have hread : ((todo.items.map itemPayload).mapIdx fun offset item => itemFromPayload lib offset item).mapM id =
      .ok (todo.items.map some) := by
    rw [hitems]
    exact mapM_ok _
  have hraw : itemsOf (Dict.get (todoToPayload todo) "items") = .ok (todo.items.map itemPayload) := rfl
  have hcreated : floatOr lib (Dict.get (todoToPayload todo) "created_at") = .ok todo.createdAt := floatOr_float _
  have hupdated : floatOr lib (Dict.get (todoToPayload todo) "updated_at") = .ok todo.updatedAt := floatOr_float _
  have hid : textOr lib todo.sessionId (Dict.get (todoToPayload todo) "session_id") = todo.sessionId := textOr_str _
  rw [todoFromPayload, hraw, hcreated, hupdated, hid]
  change (((todo.items.map itemPayload).mapIdx fun offset item => itemFromPayload lib offset item).mapM id >>= _) = _
  rw [hread]
  change Except.ok (Todo.mk todo.sessionId ((todo.items.map some).filterMap id) todo.createdAt todo.updatedAt) = _
  simp

theorem foldlM_loadSession {before todos : List Todo} (hunique : UniqueKey Todo.sessionId (before ++ todos))
    (hindexed : ∀ todo ∈ todos, Indexed todo) :
    (todos.map fun todo => (todo.sessionId, Json.dict (todoToPayload todo))).foldlM (loadSession lib) before =
      .ok (before ++ todos) := by
  induction todos generalizing before with
  | nil => simp [pure, Except.pure]
  | cons todo rest ih =>
    have habsent : lookup Todo.sessionId todo.sessionId before = none := by
      rw [lookup_eq_none]
      intro t ht heq
      rw [UniqueKey, List.map_append, List.map_cons] at hunique
      exact (List.nodup_append.mp hunique).2.2 _ (List.mem_map_of_mem ht) _ List.mem_cons_self heq
    have hfirst : loadSession lib before (todo.sessionId, .dict (todoToPayload todo)) = .ok (before ++ [todo]) := by
      change (todoFromPayload lib todo.sessionId (todoToPayload todo) >>= fun read =>
        .ok (upsertRow Todo.sessionId read before)) = _
      rw [todoFromPayload_todoToPayload (hindexed todo List.mem_cons_self)]
      exact congrArg Except.ok (upsertRow_of_absent habsent)
    rw [List.map_cons, List.foldlM_cons, hfirst]
    change List.foldlM (loadSession lib) (before ++ [todo]) _ = _
    rw [ih (by simpa using hunique) fun t ht => hindexed t (List.mem_cons_of_mem todo ht)]
    simp

theorem payload_perm (todos : List Todo) : (payload todos).Perm todos := List.perm_insertionSort _ todos

theorem WellFormed.payload {todos : List Todo} (h : WellFormed todos) : WellFormed (payload todos) where
  unique := ((payload_perm todos).map _).nodup_iff.mpr h.unique
  indexed todo htodo := h.indexed todo ((payload_perm todos).mem_iff.mp htodo)

theorem load_savedFile {todos : List Todo} (h : WellFormed todos) :
    load lib caps (some (.dict (savedFile todos))) = .ok (evictOverCap caps (TodoStore.payload todos)) := by
  have hsessions : ((TodoStore.payload todos).map fun todo => (todo.sessionId, Json.dict (todoToPayload todo))).foldlM
      (loadSession lib) [] = .ok (TodoStore.payload todos) := foldlM_loadSession h.payload.unique h.payload.indexed
  rw [load]
  change ((TodoStore.payload todos).map fun todo => (todo.sessionId, Json.dict (todoToPayload todo))).foldlM (loadSession lib) [] >>= _ = _
  rw [hsessions]
  rfl

variable {todos todos' : List Todo}

/-- The plans of a store: not more than it may hold. -/
structure Kept (caps : TodoCaps) (todos : List Todo) : Prop extends WellFormed todos where
  few : todos.length ≤ caps.maxSessions

theorem evictOverCap_of_le (h : todos.length ≤ caps.maxSessions) : evictOverCap caps todos = todos := by
  rw [evictOverCap, Nat.sub_eq_zero_of_le h, List.drop_zero]

theorem length_evictOverCap (todos : List Todo) : (evictOverCap caps todos).length ≤ caps.maxSessions := by
  rw [evictOverCap, List.length_drop]
  omega

theorem WellFormed.evictOverCap (h : WellFormed todos) : Kept caps (evictOverCap caps todos) where
  unique := uniqueKey_evictOverCap h.unique
  indexed todo htodo := h.indexed todo (List.mem_of_mem_drop htodo)
  few := length_evictOverCap todos

theorem WellFormed.putLast (h : WellFormed todos) {todo : Todo} (htodo : Indexed todo) : WellFormed (putLast todo todos) where
  unique := uniqueKey_putLast h.unique todo
  indexed t ht := by
    rcases List.mem_append.mp ht with ht | ht
    · exact h.indexed t (mem_deleteWhere.mp ht).1
    · exact List.mem_singleton.mp ht ▸ htodo

theorem length_putLast {todo : Todo} (h : todo ∈ todos) {written : Todo} (hid : written.sessionId = todo.sessionId) :
    (putLast written todos).length ≤ todos.length := by
  have hlt : (deleteWhere (fun t => t.sessionId = written.sessionId) todos).length < todos.length := by
    rw [deleteWhere, List.length_filter_lt_length_iff_exists]
    exact ⟨todo, h, by simp [hid]⟩
  rw [TodoStore.putLast, List.length_append, List.length_singleton]
  exact hlt

theorem Kept.putLast (h : Kept caps todos) {todo written : Todo} (htodo : todo ∈ todos) (hid : written.sessionId = todo.sessionId)
    (hwritten : Indexed written) : Kept caps (putLast written todos) :=
  ⟨h.toWellFormed.putLast hwritten, (length_putLast htodo hid).trans h.few⟩

/-- `add_item` and `update_item_status` write the plan of the session. -/
structure Rewrites (todos : List Todo) (sessionId : String) (todos' : List Todo) : Prop where
  written : ∃ todo ∈ todos, ∃ after : Todo, todo.sessionId = sessionId ∧ after.sessionId = sessionId ∧ Indexed after ∧
    todos' = putLast after todos

theorem addItem_ok {sessionId text : String} {position : ℤ} {now : ℚ} (h : addItem caps todos sessionId text position now = .ok todos') :
    Rewrites todos sessionId todos' := by
  rw [addItem] at h
  split at h
  · cases h
  · next todo hlookup =>
    obtain ⟨hmem, hid⟩ := lookup_some hlookup
    split at h
    · cases h
    · split at h
      · cases h
      · obtain rfl := Except.ok.inj h
        refine ⟨todo, hmem, Todo.mk todo.sessionId _ todo.createdAt now, hid, hid, ?_, rfl⟩
        intro i item hitem
        rw [List.getElem?_mapIdx, Option.map_eq_some_iff] at hitem
        obtain ⟨_, _, rfl⟩ := hitem
        rfl

theorem updateItemStatus_ok (hindexed : ∀ todo ∈ todos, Indexed todo) {sessionId status : String} {index : ℤ} {now : ℚ}
    (h : updateItemStatus todos sessionId index status now = .ok todos') : Rewrites todos sessionId todos' := by
  rw [updateItemStatus] at h
  split at h
  · cases h
  · split at h
    · cases h
    · next todo hlookup =>
      obtain ⟨hmem, hid⟩ := lookup_some hlookup
      split at h
      · cases h
      · obtain rfl := Except.ok.inj h
        refine ⟨todo, hmem, Todo.mk todo.sessionId _ todo.createdAt now, hid, hid, ?_, rfl⟩
        intro i item hitem
        rw [List.getElem?_modify] at hitem
        obtain ⟨before, hbefore, rfl⟩ := Option.map_eq_some_iff.mp hitem
        have hindex := hindexed todo hmem i before hbefore
        split
        · exact hindex
        · exact hindex

theorem Rewrites.kept {sessionId : String} (h : Rewrites todos sessionId todos') (hkept : Kept caps todos) : Kept caps todos' := by
  obtain ⟨todo, hmem, after, hid, hid', hindexed, rfl⟩ := h.written
  exact hkept.putLast hmem (hid'.trans hid.symm) hindexed

theorem Kept.change (h : Kept caps todos) {op : TodoOp} (hop : op.change caps todos = .ok todos') : Kept caps todos' := by
  cases op with
  | setPlan sessionId items now =>
    rw [TodoOp.change, setPlan] at hop
    split at hop
    · cases hop
    · obtain rfl := Except.ok.inj hop
      refine (h.toWellFormed.putLast ?_).evictOverCap
      intro i item hitem
      rw [List.getElem?_mapIdx, Option.map_eq_some_iff] at hitem
      obtain ⟨_, _, rfl⟩ := hitem
      rfl
  | addItem sessionId text position now => exact (addItem_ok hop).kept h
  | updateItemStatus sessionId index status now => exact (updateItemStatus_ok h.indexed hop).kept h
  | clearPlan sessionId =>
    obtain rfl := Except.ok.inj hop
    refine ⟨⟨h.unique.deleteWhere, ?_⟩, (List.length_filter_le _ _).trans h.few⟩
    exact fun todo htodo => h.indexed todo (mem_deleteWhere.mp htodo).1
  | getPlan sessionId =>
    obtain rfl := Except.ok.inj hop
    rw [getPlan]
    split
    · exact h
    · next todo hlookup => exact h.putLast (lookup_some hlookup).1 rfl (h.indexed todo (lookup_some hlookup).1)

theorem Kept.step {s : FileStore} (h : Kept caps s.todos) (op : TodoOp) : Kept caps (step caps s op).todos := by
  rw [TodoRestarts.step, perform]
  cases hop : op.change caps s.todos with
  | error e => exact h
  | ok todos => exact h.change hop

theorem survives_iff {s : FileStore} : Survives lib caps s ↔ load lib caps s.file = .ok s.todos := by
  constructor
  · rintro ⟨todos, hload, rfl, -⟩
    exact hload
  · intro hload
    exact ⟨s.todos, hload, rfl, fun later => ⟨rfl, rfl⟩⟩

theorem load_saved_iff (h : Kept caps todos) :
    load lib caps (some (.dict (savedFile todos))) = .ok todos ↔ todos.Pairwise fun a b => a.sessionId ≤ b.sessionId := by
  have hlength : (payload todos).length ≤ caps.maxSessions := (payload_perm todos).length_eq.trans_le h.few
  rw [load_savedFile h.toWellFormed, evictOverCap_of_le hlength, Except.ok.injEq]
  constructor
  · intro heq
    rw [← heq]
    exact List.pairwise_insertionSort (fun a b : Todo => a.sessionId ≤ b.sessionId) todos
  · intro hsorted
    exact hsorted.insertionSort_eq

theorem pairwise_concat {others : List Todo} {todo : Todo} :
    ((others ++ [todo]).Pairwise fun a b => a.sessionId ≤ b.sessionId) ↔ EndsWith others todo.sessionId := by
  rw [EndsWith, List.pairwise_append]
  simp

theorem putLast_eq_self_iff (h : UniqueKey Todo.sessionId todos) {todo : Todo} (hmem : todo ∈ todos) :
    putLast todo todos = todos ↔ todos.getLast? = some todo := by
  constructor
  · intro heq
    rw [← heq, putLast, List.getLast?_append, List.getLast?_singleton, Option.some_or]
  · intro hlast
    obtain ⟨before, rfl⟩ := List.getLast?_eq_some_iff.mp hlast
    have hfresh : ∀ t ∈ before, t.sessionId ≠ todo.sessionId := by
      intro t ht heq
      rw [UniqueKey, List.map_append, List.map_singleton] at h
      exact (List.nodup_append.mp h).2.2 _ (List.mem_map_of_mem ht) _ (List.mem_singleton_self _) heq
    rw [putLast, deleteWhere, List.filter_append, List.filter_eq_self.mpr, List.filter_eq_nil_iff.mpr, List.append_nil]
    · simp
    · intro t ht
      simpa using hfresh t ht

theorem step_of_ok {s : FileStore} {op : TodoOp} (h : op.change caps s.todos = .ok todos) :
    step caps s op = { todos, file := if op.saves then some (.dict (savedFile todos)) else s.file } := by
  rw [step, perform, h]

theorem step_of_error {s : FileStore} {op : TodoOp} {e : TodoError} (h : op.change caps s.todos = .error e) : step caps s op = s := by
  rw [step, perform, h]

theorem survives_saved_iff {s : FileStore} (hkept : Kept caps s.todos) {op : TodoOp} (h : op.change caps s.todos = .ok todos)
    (hsaves : op.saves = true) : Survives lib caps (step caps s op) ↔ todos.Pairwise fun a b => a.sessionId ≤ b.sessionId := by
  rw [survives_iff, step_of_ok h, if_pos hsaves]
  exact load_saved_iff (hkept.change h)

theorem Rewrites.pairwise_iff {sessionId : String} (h : Rewrites todos sessionId todos') :
    (todos'.Pairwise fun a b => a.sessionId ≤ b.sessionId) ↔ EndsWith (others todos sessionId) sessionId := by
  obtain ⟨todo, hmem, after, hid, hid', hindexed, rfl⟩ := h.written
  rw [putLast, pairwise_concat, hid', others]

/-- A call keeps the store that is opened on its file the same exactly when it keeps the order of
the ids. -/
theorem keeps_iff {s : FileStore} (hkept : Kept caps s.todos) (hs : Survives lib caps s) (op : TodoOp) :
    Keeps caps s op ↔ Survives lib caps (step caps s op) := by
  cases op with
  | setPlan sessionId items now =>
    by_cases hlong : items.length ≤ caps.maxItemsPerPlan
    · have hok : ∃ todo : Todo, todo.sessionId = sessionId ∧
          TodoOp.change caps s.todos (.setPlan sessionId items now) = .ok (evictOverCap caps (putLast todo s.todos)) := by
        rw [TodoOp.change, setPlan, if_neg (Nat.not_lt.mpr hlong)]
        exact ⟨_, rfl, rfl⟩
      obtain ⟨todo, rfl, hok⟩ := hok
      rw [survives_saved_iff hkept hok rfl, evictOverCap, putLast, List.length_append, List.length_singleton,
        List.drop_append_of_le_length, pairwise_concat]
      · exact ⟨fun h => h hlong, fun h _ => h⟩
      · have := caps.maxSessions_pos
        omega
    · have herror : TodoOp.change caps s.todos (.setPlan sessionId items now) =
          .error (.planTooLong items.length caps.maxItemsPerPlan) := by
        rw [TodoOp.change, setPlan, if_pos (Nat.lt_of_not_le hlong)]
      rw [step_of_error herror]
      exact ⟨fun _ => hs, fun _ h => absurd h hlong⟩
  | addItem sessionId text position now =>
    cases hop : addItem caps s.todos sessionId text position now with
    | error e =>
      have herror : TodoOp.change caps s.todos (.addItem sessionId text position now) = .error e := hop
      rw [step_of_error herror, Keeps, hop]
      exact ⟨fun _ => hs, by rintro _ ⟨⟩⟩
    | ok todos =>
      have hok : TodoOp.change caps s.todos (.addItem sessionId text position now) = .ok todos := hop
      rw [survives_saved_iff hkept hok rfl, (addItem_ok hop).pairwise_iff, Keeps, hop]
      exact ⟨fun h => h rfl, fun h _ => h⟩
  | updateItemStatus sessionId index status now =>
    cases hop : updateItemStatus s.todos sessionId index status now with
    | error e =>
      have herror : TodoOp.change caps s.todos (.updateItemStatus sessionId index status now) = .error e := hop
      rw [step_of_error herror, Keeps, hop]
      exact ⟨fun _ => hs, by rintro _ ⟨⟩⟩
    | ok todos =>
      have hok : TodoOp.change caps s.todos (.updateItemStatus sessionId index status now) = .ok todos := hop
      rw [survives_saved_iff hkept hok rfl, (updateItemStatus_ok hkept.indexed hop).pairwise_iff, Keeps, hop]
      exact ⟨fun h => h rfl, fun h _ => h⟩
  | clearPlan sessionId =>
    have hop : TodoOp.change caps s.todos (.clearPlan sessionId) = .ok (clearPlan s.todos sessionId) := rfl
    rw [survives_saved_iff hkept hop rfl]
    rfl
  | getPlan sessionId =>
    have hop : TodoOp.change caps s.todos (.getPlan sessionId) = .ok (getPlan s.todos sessionId) := rfl
    rw [survives_iff] at hs
    rw [survives_iff, step_of_ok hop]
    change _ ↔ load lib caps s.file = .ok (getPlan s.todos sessionId)
    rw [hs, Except.ok.injEq, Keeps, getPlan]
    cases hlookup : lookup Todo.sessionId sessionId s.todos with
    | none => simp
    | some todo =>
      have hmem := (lookup_some hlookup).1
      rw [eq_comm, putLast_eq_self_iff hkept.unique hmem]
      simp

def Written (file : Option Json) : Prop := ∀ json ∈ file, ∃ saved, WellFormed saved ∧ json = .dict (savedFile saved)

theorem kept_of_load {file : Option Json} (hfile : Written file) (h : load lib caps file = .ok todos) : Kept caps todos := by
  cases file with
  | none =>
    cases h
    exact ⟨⟨UniqueKey.nil, by simp⟩, Nat.zero_le _⟩
  | some json =>
    obtain ⟨saved, hsaved, rfl⟩ := hfile json rfl
    rw [load_savedFile hsaved] at h
    cases h
    exact hsaved.payload.evictOverCap

/-- Along a run of a store that was opened on its file, it survives a restart after every call
exactly when every call keeps the order of the ids. -/
theorem survives_along_iff {file : Option Json} (hfile : Written file) (hopen : load lib caps file = .ok todos) (ops : List TodoOp) :
    (∀ done rest, ops = done ++ rest → Survives lib caps (run (step caps) ⟨todos, file⟩ done)) ↔
      Guarded (step caps) (Keeps caps) ⟨todos, file⟩ ops := by
  have hkept : Kept caps todos := kept_of_load hfile hopen
  have hstart : Kept caps (FileStore.mk todos file).todos ∧ Survives lib caps ⟨todos, file⟩ := ⟨hkept, survives_iff.mpr hopen⟩
  rw [guarded_iff_holds (P := fun s : FileStore => Kept caps s.todos ∧ Survives lib caps s) ?_ hstart]
  · constructor
    · intro h done rest heq
      exact ⟨run_invariant (I := fun s : FileStore => Kept caps s.todos) (fun s op h => h.step op) hkept done, h done rest heq⟩
    · intro h done rest heq
      exact (h done rest heq).2
  · rintro s op ⟨hs, hsurvives⟩
    rw [keeps_iff hs hsurvives]
    exact ⟨fun h => ⟨hs.step op, h⟩, fun h => h.2⟩

def plainLibrary : Library where
  strOf _ := ""
  floatOf _ := none

def ascendingPlans : List TodoOp := [.setPlan "a" ["plan"] 0, .setPlan "b" ["plan"] 1, .getPlan "b"]

theorem ascending_survives : Survives plainLibrary {} (run (step {}) ⟨[], none⟩ ascendingPlans) := by
  have hwritten : Written none := by simp [Written]
  have hopen : load plainLibrary {} none = .ok [] := rfl
  refine (survives_along_iff hwritten hopen ascendingPlans).mpr ?_ ascendingPlans [] rfl
  refine .cons ?_ (.cons ?_ (.cons ?_ (.nil _)))
  · intro _
    exact ⟨.nil, by decide⟩
  · intro _
    exact ⟨by decide +kernel, by decide +kernel⟩
  · change ∀ todo ∈ lookup Todo.sessionId "b" (run (step {}) ⟨[], none⟩ [.setPlan "a" ["plan"] 0, .setPlan "b" ["plan"] 1]).todos, _
    decide +kernel

/-- The plan that was set last has the smaller id; in the file it comes first. -/
theorem recent_order_lost :
    ¬ ∀ (lib : Library) (caps : TodoCaps) (file : Option Json) (todos : List Todo) (ops : List TodoOp),
      Written file → load lib caps file = .ok todos → Survives lib caps (run (step caps) ⟨todos, file⟩ ops) := by
  intro h
  have hsurvives := h plainLibrary {} none [] [.setPlan "b" [] 0, .setPlan "a" [] 1] (by simp [Written]) rfl
  rw [survives_iff] at hsurvives
  have hkept : Kept {} (run (step {}) ⟨[], none⟩ [.setPlan "b" [] 0, .setPlan "a" [] 1]).todos :=
    run_invariant (I := fun s : FileStore => Kept {} s.todos) (fun s op hs => hs.step op) ⟨⟨UniqueKey.nil, by simp⟩, Nat.zero_le _⟩ _
  have hsorted := (load_saved_iff hkept).mp hsurvives
  revert hsorted
  decide +kernel

end OpenMinion.TodoRestarts
