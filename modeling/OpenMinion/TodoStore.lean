import Mathlib.Data.Fintype.Basic
import Mathlib.Data.List.Sort
import Mathlib.Data.Rat.Defs
import Mathlib.Data.String.Basic
import OpenMinion.InterleavedThreads
import OpenMinion.KeyedTables

/-!
# The todo store

Todo plans in memory, in the order of their last use, and the file that mirrors them. A call changes the plans and
takes a snapshot under the lock, each on its own, and writes the snapshot without it.
-/
namespace OpenMinion.TodoStore
open InterleavedThreads KeyedTables TransitionRuns

inductive TodoItemStatus where
  | todo
  | inProgress
  | done
  | blocked
  deriving DecidableEq

/-- The status of a text, if it is one of `VALID_STATUSES`. -/
def TodoItemStatus.ofText (text : String) : Option TodoItemStatus :=
  if text = "todo" then some .todo
  else if text = "in_progress" then some .inProgress
  else if text = "done" then some .done
  else if text = "blocked" then some .blocked
  else none

structure TodoItem where
  index : ℕ
  text : String
  status : TodoItemStatus := .todo
  createdAt : ℚ
  updatedAt : ℚ
  deriving DecidableEq

structure Todo where
  sessionId : String
  items : List TodoItem
  createdAt : ℚ
  updatedAt : ℚ
  deriving DecidableEq

inductive TodoError where
  | planTooLong (count cap : ℕ)
  | noPlan (sessionId : String)
  | planFull (sessionId : String) (cap : ℕ)
  | invalidPosition (position : ℤ)
  | invalidStatus (status : String)
  | indexOutOfRange (index : ℤ) (count : ℕ)
  deriving DecidableEq

structure TodoCaps where
  maxSessions : ℕ := 100
  maxItemsPerPlan : ℕ := 100
  maxSessions_pos : 1 ≤ maxSessions := by decide
  maxItemsPerPlan_pos : 1 ≤ maxItemsPerPlan := by decide

def putLast (todo : Todo) (todos : List Todo) : List Todo :=
  deleteWhere (fun t => t.sessionId = todo.sessionId) todos ++ [todo]

/-- `_evict_if_over_cap_locked`. -/
def evictOverCap (caps : TodoCaps) (todos : List Todo) : List Todo := todos.drop (todos.length - caps.maxSessions)

def setPlan (caps : TodoCaps) (todos : List Todo) (sessionId : String) (items : List String) (now : ℚ) :
    Except TodoError (List Todo) :=
  if caps.maxItemsPerPlan < items.length then .error (.planTooLong items.length caps.maxItemsPerPlan)
  else
    let todoItems := items.mapIdx fun i text => { index := i, text := text, createdAt := now, updatedAt := now }
    .ok (evictOverCap caps (putLast ⟨sessionId, todoItems, now, now⟩ todos))

/-- Where `add_item` inserts. -/
def insertAt (count : ℕ) (position : ℤ) : Except TodoError ℕ :=
  if position = -1 ∨ (count : ℤ) ≤ position then .ok count
  else if position < -1 then .error (.invalidPosition position)
  else .ok position.toNat

def addItem (caps : TodoCaps) (todos : List Todo) (sessionId text : String) (position : ℤ) (now : ℚ) :
    Except TodoError (List Todo) :=
  match lookup Todo.sessionId sessionId todos with
  | none => .error (.noPlan sessionId)
  | some todo =>
    if caps.maxItemsPerPlan ≤ todo.items.length then .error (.planFull sessionId caps.maxItemsPerPlan)
    else match insertAt todo.items.length position with
      | .error e => .error e
      | .ok i =>
        let newItem : TodoItem := { index := i, text := text, createdAt := now, updatedAt := now }
        let items := (todo.items.insertIdx i newItem).mapIdx fun offset item => { item with index := offset }
        .ok (putLast { todo with items := items, updatedAt := now } todos)

def updateItemStatus (todos : List Todo) (sessionId : String) (index : ℤ) (status : String) (now : ℚ) :
    Except TodoError (List Todo) :=
  match TodoItemStatus.ofText status with
  | none => .error (.invalidStatus status)
  | some status =>
    match lookup Todo.sessionId sessionId todos with
    | none => .error (.noPlan sessionId)
    | some todo =>
      if index < 0 ∨ (todo.items.length : ℤ) ≤ index then .error (.indexOutOfRange index todo.items.length)
      else
        let items := todo.items.modify index.toNat fun item => { item with status := status, updatedAt := now }
        .ok (putLast { todo with items := items, updatedAt := now } todos)

def clearPlan (todos : List Todo) (sessionId : String) : List Todo :=
  deleteWhere (fun t => t.sessionId = sessionId) todos

/-- What `get_plan` does to the order. -/
def getPlan (todos : List Todo) (sessionId : String) : List Todo :=
  match lookup Todo.sessionId sessionId todos with
  | none => todos
  | some todo => putLast todo todos

inductive TodoOp where
  | setPlan (sessionId : String) (items : List String) (now : ℚ)
  | addItem (sessionId text : String) (position : ℤ) (now : ℚ)
  | updateItemStatus (sessionId : String) (index : ℤ) (status : String) (now : ℚ)
  | clearPlan (sessionId : String)
  | getPlan (sessionId : String)

def TodoOp.change (caps : TodoCaps) (todos : List Todo) : TodoOp → Except TodoError (List Todo)
  | .setPlan sessionId items now => TodoStore.setPlan caps todos sessionId items now
  | .addItem sessionId text position now => TodoStore.addItem caps todos sessionId text position now
  | .updateItemStatus sessionId index status now => TodoStore.updateItemStatus todos sessionId index status now
  | .clearPlan sessionId => .ok (TodoStore.clearPlan todos sessionId)
  | .getPlan sessionId => .ok (TodoStore.getPlan todos sessionId)

/-- The call is followed by `_save`. -/
def TodoOp.saves : TodoOp → Bool
  | .getPlan _ => false
  | _ => true

/-- The sessions of the payload of `_save`, sorted by their keys. -/
def payload (todos : List Todo) : List Todo := todos.insertionSort fun a b => a.sessionId ≤ b.sessionId

/-- Where a thread is in a call. The snapshots are numbered in the order in which they are
taken; the code has no such numbers. -/
inductive Activity where
  | idle
  /-- Before the snapshot of `_save`. -/
  | saving
  /-- Before the file is written. -/
  | writing (number : ℕ) (sessions : List Todo)
  deriving DecidableEq

def Activity.isIdle : Activity → Bool
  | .idle => true
  | _ => false

/-- The plans and the file, with the number of snapshots that were taken and the number of
the one that was written last. -/
structure Shared where
  todos : List Todo
  file : Option (List Todo)
  snapshots : ℕ := 0
  written : ℕ := 0

def begin (caps : TodoCaps) (s : Shared) (op : TodoOp) : Shared × Activity :=
  match op.change caps s.todos with
  | .error _ => (s, .idle)
  | .ok todos => ({ s with todos := todos }, if op.saves then .saving else .idle)

def next (s : Shared) : Activity → Shared × Activity
  | .idle => (s, .idle)
  | .saving => ({ s with snapshots := s.snapshots + 1 }, .writing (s.snapshots + 1) (payload s.todos))
  | .writing number sessions => ({ s with file := some sessions, written := number }, .idle)

def threads (caps : TodoCaps) : Threads Shared Activity TodoOp Unit where
  isIdle := Activity.isIdle
  begin := begin caps
  next s act _ := next s act

/-- The file holds the plans; a missing file holds none. -/
def Shared.FileHolds (s : Shared) : Prop := s.file.getD [] = payload s.todos

def start {Thread : Type} (todos : List Todo) (file : Option (List Todo)) : System Thread Shared Activity :=
  ⟨{ todos := todos, file := file }, fun _ => .idle⟩

def InOrder {Thread : Type} (σ : System Thread Shared Activity) : Action Thread TodoOp Unit → Prop
  | .start _ _ => True
  | .advance t _ => match σ.threads t with
    | .writing number _ => σ.shared.written < number
    | _ => True

instance {Thread : Type} (σ : System Thread Shared Activity) : (a : Action Thread TodoOp Unit) → Decidable (InOrder σ a)
  | .start _ _ => isTrue trivial
  | .advance t _ => by
    rw [InOrder]
    cases σ.threads t with
    | writing number sessions => exact inferInstanceAs (Decidable (σ.shared.written < number))
    | _ => exact isTrue trivial

section Keys

variable {caps : TodoCaps} {todos todos' : List Todo}

theorem uniqueKey_putLast (h : UniqueKey Todo.sessionId todos) (todo : Todo) :
    UniqueKey Todo.sessionId (putLast todo todos) := by
  refine h.deleteWhere.append_singleton fun t ht => ?_
  have hne := (mem_deleteWhere.mp ht).2
  exact of_decide_eq_false hne

theorem uniqueKey_evictOverCap (h : UniqueKey Todo.sessionId todos) :
    UniqueKey Todo.sessionId (evictOverCap caps todos) :=
  h.sublist ((List.drop_sublist _ _).map _)

theorem uniqueKey_getPlan (h : UniqueKey Todo.sessionId todos) (sessionId : String) :
    UniqueKey Todo.sessionId (getPlan todos sessionId) := by
  rw [getPlan]
  split
  · exact h
  · exact uniqueKey_putLast h _

theorem uniqueKey_change (h : UniqueKey Todo.sessionId todos) {op : TodoOp} (hop : op.change caps todos = .ok todos') :
    UniqueKey Todo.sessionId todos' := by
  cases op with
  | setPlan sessionId items now =>
    rw [TodoOp.change, setPlan] at hop
    split at hop
    · cases hop
    · obtain rfl := Except.ok.inj hop
      exact uniqueKey_evictOverCap (uniqueKey_putLast h _)
  | addItem sessionId text position now =>
    rw [TodoOp.change, addItem] at hop
    split at hop
    · cases hop
    · split at hop
      · cases hop
      · split at hop
        · cases hop
        · obtain rfl := Except.ok.inj hop
          exact uniqueKey_putLast h _
  | updateItemStatus sessionId index status now =>
    rw [TodoOp.change, updateItemStatus] at hop
    split at hop
    · cases hop
    · split at hop
      · cases hop
      · split at hop
        · cases hop
        · obtain rfl := Except.ok.inj hop
          exact uniqueKey_putLast h _
  | clearPlan sessionId =>
    obtain rfl := Except.ok.inj hop
    exact h.deleteWhere
  | getPlan sessionId =>
    obtain rfl := Except.ok.inj hop
    exact uniqueKey_getPlan h sessionId

theorem putLast_perm (h : UniqueKey Todo.sessionId todos) {todo : Todo} (hmem : todo ∈ todos) :
    (putLast todo todos).Perm todos := by
  have hsame : (todos.filter fun t => t.sessionId = todo.sessionId) = [todo] := by
    induction todos with
    | nil => cases hmem
    | cons t rest ih =>
      obtain ⟨hfresh, hrest⟩ := List.nodup_cons.mp h
      rcases List.mem_cons.mp hmem with rfl | hmem
      · have hnone : (rest.filter fun t => t.sessionId = todo.sessionId) = [] := by
          rw [List.filter_eq_nil_iff]
          intro t ht hkey
          exact hfresh (List.mem_map.mpr ⟨t, ht, of_decide_eq_true hkey⟩)
        rw [List.filter_cons_of_pos (by simp), hnone]
      · have hne : t.sessionId ≠ todo.sessionId := by
          intro hkey
          exact hfresh (List.mem_map.mpr ⟨todo, hmem, hkey.symm⟩)
        rw [List.filter_cons_of_neg (by simpa using hne)]
        exact ih hrest hmem
  have hsplit := List.filter_append_perm (fun t : Todo => decide (t.sessionId = todo.sessionId)) todos
  rw [hsame] at hsplit
  exact List.perm_append_comm.trans hsplit

theorem payload_eq_of_perm (h : UniqueKey Todo.sessionId todos) (hperm : todos'.Perm todos) :
    payload todos' = payload todos := by
  have hall : ∀ l : List Todo, (payload l).Pairwise fun a b => a.sessionId ≤ b.sessionId :=
    fun l => List.pairwise_insertionSort _ l
  have hperm' : (payload todos').Perm (payload todos) :=
    (List.perm_insertionSort _ todos').trans (hperm.trans (List.perm_insertionSort _ todos).symm)
  refine hperm'.eq_of_pairwise ?_ (hall todos') (hall todos)
  intro a b ha hb hab hba
  have ha : a ∈ todos := hperm.subset ((List.perm_insertionSort _ todos').subset ha)
  have hb : b ∈ todos := (List.perm_insertionSort _ todos).subset hb
  exact h.eq_of_key_eq ha hb (le_antisymm hab hba)

theorem payload_getPlan (h : UniqueKey Todo.sessionId todos) (sessionId : String) :
    payload (getPlan todos sessionId) = payload todos := by
  rw [getPlan]
  split
  · rfl
  · next todo hfound => exact payload_eq_of_perm h (putLast_perm h (lookup_some hfound).1)

end Keys

/-- Some thread is still going to save, or the newest snapshot is that of the plans and in the file or on its way. -/
structure Mirrored {Thread : Type} (σ : System Thread Shared Activity) : Prop where
  keys : UniqueKey Todo.sessionId σ.shared.todos
  numbers : ∀ t number sessions, σ.threads t = .writing number sessions → number ≤ σ.shared.snapshots
  newest : (∃ t, σ.threads t = .saving) ∨
    (∃ t, σ.threads t = .writing σ.shared.snapshots (payload σ.shared.todos)) ∨
    σ.shared.written = σ.shared.snapshots ∧ σ.shared.FileHolds

section Invariant

variable {Thread : Type} [DecidableEq Thread] {caps : TodoCaps} {σ : System Thread Shared Activity} {t : Thread}

theorem Mirrored.changed (h : Mirrored σ) {todos : List Todo} (hkeys : UniqueKey Todo.sessionId todos) :
    Mirrored (σ.become t ({ σ.shared with todos := todos }, .saving)) := by
  refine ⟨hkeys, fun t' number sessions ht' => ?_, .inl ⟨t, by simp⟩⟩
  rw [threads_become] at ht'
  split at ht'
  · cases ht'
  · exact h.numbers t' number sessions ht'

theorem Mirrored.reordered (h : Mirrored σ) (ht : σ.threads t = .idle) {todos : List Todo}
    (hkeys : UniqueKey Todo.sessionId todos) (hpayload : payload todos = payload σ.shared.todos) :
    Mirrored (σ.become t ({ σ.shared with todos := todos }, .idle)) := by
  have hthreads : ∀ t', (σ.become t ({ σ.shared with todos := todos }, .idle)).threads t' = σ.threads t' := by
    intro t'
    rw [threads_become]
    split
    · next heq => rw [heq, ht]
    · rfl
  refine ⟨hkeys, fun t' number sessions ht' => h.numbers t' number sessions (hthreads t' ▸ ht'), ?_⟩
  simp only [hthreads, shared_become, hpayload, Shared.FileHolds]
  exact h.newest

theorem Mirrored.begin (h : Mirrored σ) (ht : σ.threads t = .idle) (op : TodoOp) :
    Mirrored (σ.become t (begin caps σ.shared op)) := by
  rw [TodoStore.begin]
  cases hop : op.change caps σ.shared.todos with
  | error e => exact h.reordered ht h.keys rfl
  | ok todos =>
    have hkeys := uniqueKey_change h.keys hop
    cases op with
    | getPlan sessionId =>
      obtain rfl := Except.ok.inj hop
      exact h.reordered ht hkeys (payload_getPlan h.keys sessionId)
    | _ => exact h.changed hkeys

theorem Mirrored.snapshot (h : Mirrored σ) :
    Mirrored (σ.become t ({ σ.shared with snapshots := σ.shared.snapshots + 1 },
      .writing (σ.shared.snapshots + 1) (payload σ.shared.todos))) := by
  refine ⟨h.keys, fun t' number sessions ht' => ?_, .inr (.inl ⟨t, by simp⟩)⟩
  rw [threads_become] at ht'
  split at ht'
  · cases ht'
    exact le_rfl
  · exact Nat.le_succ_of_le (h.numbers t' number sessions ht')

theorem Mirrored.write (h : Mirrored σ) {number : ℕ} {sessions : List Todo}
    (ht : σ.threads t = .writing number sessions) (horder : σ.shared.written < number) :
    Mirrored (σ.become t ({ σ.shared with file := some sessions, written := number }, .idle)) := by
  have hother : ∀ t', σ.threads t' ≠ .writing number sessions →
      (σ.become t ({ σ.shared with file := some sessions, written := number }, .idle)).threads t' = σ.threads t' := by
    intro t' hne
    rw [threads_become, if_neg]
    rintro rfl
    exact hne ht
  refine ⟨h.keys, fun t' number' sessions' ht' => ?_, ?_⟩
  · rw [threads_become] at ht'
    split at ht'
    · cases ht'
    · exact h.numbers t' number' sessions' ht'
  · rcases h.newest with ⟨t', ht'⟩ | ⟨t', ht'⟩ | ⟨hwritten, -⟩
    · refine .inl ⟨t', ?_⟩
      rw [hother t' (by rw [ht']; exact fun heq => nomatch heq), ht']
    · by_cases heq : t' = t
      · -- the newest snapshot itself
        subst heq
        obtain ⟨rfl, rfl⟩ := Activity.writing.inj (ht.symm.trans ht')
        exact .inr (.inr ⟨rfl, rfl⟩)
      · refine .inr (.inl ⟨t', ?_⟩)
        rw [threads_become, if_neg heq]
        exact ht'
    · have hle := h.numbers t number sessions ht
      omega

theorem Mirrored.step (h : Mirrored σ) (a : Action Thread TodoOp Unit) (hok : InOrder σ a) :
    Mirrored ((threads caps).step σ a) := by
  cases a with
  | start t op =>
    rw [Threads.step]
    split
    · next hidle =>
      have ht : σ.threads t = .idle := by
        cases ht : σ.threads t with
        | idle => rfl
        | _ =>
          rw [ht] at hidle
          cases hidle
      exact h.begin ht op
    · exact h
  | advance t _ =>
    rw [InOrder] at hok
    change Mirrored (σ.become t (next σ.shared (σ.threads t)))
    cases ht : σ.threads t with
    | idle => exact h.reordered ht h.keys rfl
    | saving => exact h.snapshot
    | writing number sessions =>
      rw [ht] at hok
      exact h.write ht hok

end Invariant

/-- In every run that writes the snapshots in their order, and in every state of it without a
call in progress, the file holds the plans that are in memory. -/
theorem todoFile_holds_when_inOrder {Thread : Type} [DecidableEq Thread] (caps : TodoCaps) (todos : List Todo)
    (hkeys : UniqueKey Todo.sessionId todos) (file : Option (List Todo)) (hfile : file.getD [] = payload todos)
    (actions : List (Action Thread TodoOp Unit))
    (h : Guarded (threads caps).step InOrder (start todos file) actions)
    (hidle : ∀ t, ((run (threads caps).step (start todos file) actions).threads t).isIdle = true) :
    (run (threads caps).step (start todos file) actions).shared.FileHolds := by
  have hstart : Mirrored (start todos file : System Thread Shared Activity) :=
    ⟨hkeys, fun _ _ _ ht => (nomatch ht), .inr (.inr ⟨rfl, hfile⟩)⟩
  have hmirrored := h.invariant (fun _ a hσ hok => Mirrored.step hσ a hok) hstart
  rcases hmirrored.newest with ⟨t, ht⟩ | ⟨t, ht⟩ | ⟨-, hholds⟩
  · have hbusy := hidle t
    rw [ht] at hbusy
    cases hbusy
  · have hbusy := hidle t
    rw [ht] at hbusy
    cases hbusy
  · exact hholds

/-- One thread writes a plan, another one a second plan; the first takes its snapshot and
writes it before the second does. -/
def writesInOrder : List (Action Bool TodoOp Unit) :=
  [.start false (.setPlan "a" ["read"] 1), .start true (.setPlan "b" ["write", "test"] 2), .advance false (),
    .advance true (), .start true (.getPlan "a"), .advance false (), .advance true (),
    .start false (.updateItemStatus "b" 1 "done" 3), .advance false (), .advance false ()]

theorem todoFile_holds_writesInOrder :
    ((run (threads {}).step (start [] none) writesInOrder).shared.file.getD []).map Todo.sessionId = ["a", "b"] ∧
    (run (threads {}).step (start [] none) writesInOrder).shared.FileHolds := by
  refine ⟨by decide +kernel, ?_⟩
  exact todoFile_holds_when_inOrder {} [] .nil none rfl writesInOrder (by decide +kernel) (by decide +kernel)

def writesOutOfOrder : List (Action Bool TodoOp Unit) :=
  [.start false (.setPlan "a" ["read"] 1), .advance false (), .start true (.setPlan "b" ["write", "test"] 2),
    .advance true (), .advance true (), .advance false ()]

/-- The second plan is lost. -/
theorem todoFile_loses_update :
    ¬ ∀ actions : List (Action Bool TodoOp Unit),
      (∀ t, ((run (threads {}).step (start [] none) actions).threads t).isIdle = true) →
      (run (threads {}).step (start [] none) actions).shared.FileHolds := by
  intro hholds
  have hheld := hholds writesOutOfOrder (by decide +kernel)
  have hlost : ¬ (run (threads {}).step (start [] none) writesOutOfOrder).shared.file.getD [] =
      payload (run (threads {}).step (start [] none) writesOutOfOrder).shared.todos := by decide +kernel
  exact hlost hheld

end OpenMinion.TodoStore
