import Mathlib.Data.Rat.Defs
import Mathlib.Data.List.Pairwise
import Mathlib.Data.List.Sort
import Mathlib.Data.String.Basic
import OpenMinion.JsonValues
import OpenMinion.KeyedTables
import OpenMinion.PythonText

/-!
# The durable state store of the agent-to-agent runtime

The tables `idempotency_keys` and `jobs` and the methods of `_StateStoreMixin`. Clock readings are arguments; a time
stamp is a value of any ordered type, for which the source has texts.
-/
namespace OpenMinion.A2AStateStore
open JsonValues KeyedTables PythonText

def statusInProgress : String := "IN_PROGRESS"
def statusSuccess : String := "SUCCESS"
def statusFailed : String := "FAILED"
def statusCanceled : String := "CANCELED"

def statePending : String := "PENDING"
def stateRunning : String := "RUNNING"
def stateSuccess : String := "SUCCESS"
def stateFailed : String := "FAILED"
def stateCanceled : String := "CANCELED"

/-- `A2A_TERMINAL_JOB_STATES`. -/
def terminalJobStates : List String := [stateSuccess, stateFailed, stateCanceled]

/-- `A2A_ACTIVE_JOB_STATES`. -/
def activeJobStates : List String := [statePending, stateRunning]

structure IdempotencyRecord (Stamp : Type) where
  key : String
  scope : String
  status : String
  resultInline : Option Dict := none
  resultRef : Option String := none
  error : Option Dict := none
  taskId : Option String := none
  createdAt : Stamp
  updatedAt : Stamp
  deriving DecidableEq

structure JobRecord (Stamp : Type) where
  taskId : String
  traceId : String
  idempotencyKey : String
  agentId : String
  method : String
  state : String
  currentStep : String := ""
  progress : ℚ := 0
  resultInline : Option Dict := none
  resultRef : Option String := none
  error : Option Dict := none
  ownerAgentId : String := ""
  idempotencyScope : String := ""
  createdAt : Stamp
  updatedAt : Stamp
  heartbeatAt : Stamp
  deriving DecidableEq

/-- The primary key of `idempotency_keys`. -/
def IdempotencyRecord.slot {Stamp : Type} (r : IdempotencyRecord Stamp) : String × String := (r.scope, r.key)

def JobRecord.isTerminal {Stamp : Type} (j : JobRecord Stamp) : Bool := terminalJobStates.contains j.state

structure StateTables (Stamp : Type) where
  idempotency : List (IdempotencyRecord Stamp) := []
  jobs : List (JobRecord Stamp) := []
  deriving DecidableEq

inductive StoreError where
  | integrityError
  | keyError (key : String)
  | runtimeError (message : String)
  | typeError
  deriving DecidableEq

structure Receipt where
  status : String
  resultInline : Option Dict := none
  resultRef : Option String := none
  error : Option Dict := none
  deriving DecidableEq

/-- The patch of `update_job`. A field that it has may be `None`; `unknown` are the keys that
no record has. -/
structure JobPatch (Stamp : Type) where
  state : Option String := none
  currentStep : Option String := none
  progress : Option ℚ := none
  resultInline : Option (Option Dict) := none
  resultRef : Option (Option String) := none
  error : Option (Option Dict) := none
  updatedAt : Option Stamp := none
  heartbeatAt : Option Stamp := none
  taskId : Option String := none
  traceId : Option String := none
  idempotencyKey : Option String := none
  agentId : Option String := none
  method : Option String := none
  ownerAgentId : Option String := none
  idempotencyScope : Option String := none
  createdAt : Option Stamp := none
  unknown : List String := []
  deriving DecidableEq

/-- The mapping `filter_by` of `list_jobs`. -/
structure JobFilter where
  state : Option String := none
  states : Option (List String) := none
  traceId : Option String := none
  agentId : Option String := none
  method : Option String := none
  ownerAgentId : Option String := none
  sessionId : Option String := none
  order : Option String := none
  limit : ℤ := 500
  deriving DecidableEq

section Idempotency

variable {Stamp : Type}

abbrev IdempotencyTable (Stamp : Type) := List (IdempotencyRecord Stamp)

def getIdempotency (rows : IdempotencyTable Stamp) (scope key : String) : Option (IdempotencyRecord Stamp) :=
  lookup IdempotencyRecord.slot (scope, key) rows

def inProgressIdempotency (key scope : String) (stamped : Stamp) : IdempotencyRecord Stamp where
  key := key
  scope := scope
  status := statusInProgress
  createdAt := stamped
  updatedAt := stamped

/-- `INSERT .. ON CONFLICT DO NOTHING`, and the read of the row that was there. -/
def reserveIdempotency (rows : IdempotencyTable Stamp) (key scope : String) (now : Stamp) :
    (Bool × Option (IdempotencyRecord Stamp)) × IdempotencyTable Stamp :=
  match getIdempotency rows scope key with
  | some row => ((false, some row), rows)
  | none =>
    let row := inProgressIdempotency key scope now
    ((true, some row), rows ++ [row])

/-- The `WHERE` of `finish_idempotency`. -/
def isPending [DecidableEq Stamp] (reservation : IdempotencyRecord Stamp) (row : IdempotencyRecord Stamp) : Bool :=
  row.slot = reservation.slot && row.status = statusInProgress && row.createdAt = reservation.createdAt

def Receipt.write (receipt : Receipt) (now : Stamp) (row : IdempotencyRecord Stamp) : IdempotencyRecord Stamp :=
  { row with
    status := receipt.status
    resultInline := receipt.resultInline
    resultRef := receipt.resultRef
    error := receipt.error
    updatedAt := now }

def finishIdempotency [DecidableEq Stamp] (rows : IdempotencyTable Stamp) (reservation : IdempotencyRecord Stamp) (receipt : Receipt)
    (now : Stamp) : Bool × IdempotencyTable Stamp :=
  (rows.any (isPending reservation), updateWhere (isPending reservation) (receipt.write now) rows)

/-- The row that `set_idempotency_result` leaves in place of another, if there is one. -/
def resultRow (key scope : String) (receipt : Receipt) (taskId : Option String) (now : Stamp) :
    Option (IdempotencyRecord Stamp) → IdempotencyRecord Stamp
  | some row => { receipt.write now row with taskId := taskId }
  | none => ⟨key, scope, receipt.status, receipt.resultInline, receipt.resultRef, receipt.error, taskId, now, now⟩

/-- `INSERT .. ON CONFLICT(scope, key) DO UPDATE`, which keeps `created_at`. -/
def upsertResult (rows : IdempotencyTable Stamp) (key scope : String) (receipt : Receipt) (taskId : Option String)
    (now : Stamp) : IdempotencyTable Stamp :=
  match getIdempotency rows scope key with
  | some _ => updateWhere (fun r => r.slot = (scope, key)) (fun r => resultRow key scope receipt taskId now (some r)) rows
  | none => rows ++ [resultRow key scope receipt taskId now none]

def setIdempotencyResult (rows : IdempotencyTable Stamp) (key scope : String) (receipt : Receipt)
    (taskId : Option String) (now : Stamp) : Except StoreError (IdempotencyRecord Stamp) × IdempotencyTable Stamp :=
  let rows' := upsertResult rows key scope receipt taskId now
  match getIdempotency rows' scope key with
  | some row => (.ok row, rows')
  | none => (.error (.runtimeError s!"Failed to read idempotency record {scope}:{key}"), rows')

end Idempotency

section Jobs

variable {Stamp : Type}

abbrev JobTable (Stamp : Type) := List (JobRecord Stamp)

def getJob (rows : JobTable Stamp) (taskId : String) : Option (JobRecord Stamp) :=
  lookup JobRecord.taskId taskId rows

def createJob (rows : JobTable Stamp) (job : JobRecord Stamp) : Except StoreError String × JobTable Stamp :=
  match getJob rows job.taskId with
  | some _ => (.error .integrityError, rows)
  | none => (.ok job.taskId, rows ++ [job])

/-- The patch has no field that `update_job` writes. -/
def JobPatch.isIdle (patch : JobPatch Stamp) : Bool :=
  patch.state.isNone && patch.currentStep.isNone && patch.progress.isNone && patch.resultInline.isNone &&
    patch.resultRef.isNone && patch.error.isNone && patch.updatedAt.isNone && patch.heartbeatAt.isNone

/-- The `SET` of `update_job`, for a row. -/
def JobPatch.write (patch : JobPatch Stamp) (now : Stamp) (job : JobRecord Stamp) : JobRecord Stamp :=
  { job with
    state := patch.state.getD job.state
    currentStep := patch.currentStep.getD job.currentStep
    progress := patch.progress.getD job.progress
    resultInline := patch.resultInline.getD job.resultInline
    resultRef := patch.resultRef.getD job.resultRef
    error := patch.error.getD job.error
    updatedAt := patch.updatedAt.getD now
    heartbeatAt := patch.heartbeatAt.getD job.heartbeatAt }

def updateJob (rows : JobTable Stamp) (taskId : String) (patch : JobPatch Stamp) (now : Stamp) :
    Except StoreError (JobRecord Stamp) × JobTable Stamp :=
  let rows' := if patch.isIdle then rows else updateWhere (fun j => j.taskId = taskId) (patch.write now) rows
  match getJob rows' taskId with
  | some job => (.ok job, rows')
  | none => (.error (.keyError taskId), rows')

def applies (filter : Option String) (ok : String → Bool) : Bool :=
  match filter with
  | none => true
  | some text => text = "" || ok text

/-- The texts of `states` that are not blank. -/
def statesGiven (states : List String) : List String := states.filter fun text => strip text ≠ ""

/-- The `WHERE` of `list_jobs`. -/
def JobFilter.selects (f : JobFilter) (job : JobRecord Stamp) : Bool :=
  applies f.state (job.state = ·) &&
    (match f.states with
      | none => true
      | some states => (statesGiven states).isEmpty || (statesGiven states).contains job.state) &&
    applies f.traceId (job.traceId = ·) && applies f.agentId (job.agentId = ·) && applies f.method (job.method = ·) &&
    applies f.ownerAgentId (job.ownerAgentId = ·) &&
    applies f.sessionId fun sessionId =>
      job.idempotencyScope = "job.start:" ++ job.agentId ++ ":" ++ job.method ++ ":" ++ sessionId

/-- `max(1, min(limit, 5000))`. -/
def JobFilter.rowLimit (f : JobFilter) : ℕ := (max 1 (min f.limit 5000)).toNat

def createdBefore [LinearOrder Stamp] (a b : JobRecord Stamp) : Prop := a.createdAt ≤ b.createdAt

instance [LinearOrder Stamp] : DecidableRel (@createdBefore Stamp _) :=
  fun a b => inferInstanceAs (Decidable (a.createdAt ≤ b.createdAt))

instance [LinearOrder Stamp] : Std.Total (@createdBefore Stamp _) := ⟨fun a b => le_total a.createdAt b.createdAt⟩

instance [LinearOrder Stamp] : IsTrans (JobRecord Stamp) createdBefore := ⟨fun _ _ _ hab hbc => le_trans hab hbc⟩

/-- `ORDER BY created_at DESC, task_id DESC`. -/
def moreRecent [LinearOrder Stamp] (a b : JobRecord Stamp) : Prop :=
  b.createdAt < a.createdAt ∨ b.createdAt = a.createdAt ∧ b.taskId ≤ a.taskId

instance [LinearOrder Stamp] : DecidableRel (@moreRecent Stamp _) :=
  fun a b => inferInstanceAs (Decidable (b.createdAt < a.createdAt ∨ b.createdAt = a.createdAt ∧ b.taskId ≤ a.taskId))

instance [LinearOrder Stamp] : Std.Total (@moreRecent Stamp _) where
  total a b := by
    rcases lt_trichotomy a.createdAt b.createdAt with hlt | heq | hlt
    · exact .inr (.inl hlt)
    · exact (le_total b.taskId a.taskId).imp (fun h => .inr ⟨heq.symm, h⟩) fun h => .inr ⟨heq, h⟩
    · exact .inl (.inl hlt)

instance [LinearOrder Stamp] : IsTrans (JobRecord Stamp) moreRecent where
  trans a b c := by
    rintro (hab | ⟨hab, hid⟩) (hbc | ⟨hbc, hid'⟩)
    · exact .inl (hbc.trans hab)
    · exact .inl (hbc ▸ hab)
    · exact .inl (hab ▸ hbc)
    · exact .inr ⟨hbc.trans hab, hid'.trans hid⟩

/-- `list_jobs`, over the rows as the query visits them: those that agree in `created_at` stay in that order. -/
def listJobs [LinearOrder Stamp] (rows : JobTable Stamp) (f : JobFilter) : List (JobRecord Stamp) :=
  let selected := rows.filter f.selects
  let ordered := if f.order = some "recent" then selected.insertionSort moreRecent else selected.insertionSort createdBefore
  ordered.take f.rowLimit

end Jobs

section Slots

variable {Stamp : Type} {rows : IdempotencyTable Stamp} {scope key : String}

theorem slot_getIdempotency {row : IdempotencyRecord Stamp} (h : getIdempotency rows scope key = some row) :
    row.slot = (scope, key) := (lookup_some h).2

theorem getIdempotency_append (rows : IdempotencyTable Stamp) (row : IdempotencyRecord Stamp) (scope key : String) :
    getIdempotency (rows ++ [row]) scope key =
      (getIdempotency rows scope key).or (if row.slot = (scope, key) then some row else none) := by
  rw [getIdempotency, getIdempotency, lookup, lookup, List.find?_append]
  by_cases hslot : row.slot = (scope, key) <;> simp [hslot]

theorem reserveIdempotency_of_some {row : IdempotencyRecord Stamp} (h : getIdempotency rows scope key = some row)
    (now : Stamp) : reserveIdempotency rows key scope now = ((false, some row), rows) := by
  rw [reserveIdempotency, h]

theorem reserveIdempotency_of_none (h : getIdempotency rows scope key = none) (now : Stamp) :
    reserveIdempotency rows key scope now =
      ((true, some (inProgressIdempotency key scope now)), rows ++ [inProgressIdempotency key scope now]) := by
  rw [reserveIdempotency, h]

@[simp] theorem slot_inProgressIdempotency (key scope : String) (now : Stamp) :
    (inProgressIdempotency key scope now).slot = (scope, key) := rfl

theorem getIdempotency_append_inProgress (h : getIdempotency rows scope key = none) (now : Stamp) :
    getIdempotency (rows ++ [inProgressIdempotency key scope now]) scope key =
      some (inProgressIdempotency key scope now) := by
  rw [getIdempotency_append, h, Option.none_or, slot_inProgressIdempotency, if_pos rfl]

theorem getIdempotency_finishIdempotency [DecidableEq Stamp] (reservation : IdempotencyRecord Stamp) (receipt : Receipt)
    (now : Stamp) (scope key : String) :
    getIdempotency (finishIdempotency rows reservation receipt now).2 scope key =
      (getIdempotency rows scope key).map fun row =>
        if isPending reservation row then receipt.write now row else row := by
  have hkey : ∀ r, isPending reservation r = true → (receipt.write now r).slot = r.slot := fun _ _ => rfl
  exact lookup_updateWhere hkey (scope, key)

theorem isPending_iff [DecidableEq Stamp] {reservation row : IdempotencyRecord Stamp} :
    isPending reservation row = true ↔
      row.slot = reservation.slot ∧ row.status = statusInProgress ∧ row.createdAt = reservation.createdAt := by
  simp [isPending, and_assoc]

theorem isPending_inProgress [DecidableEq Stamp] (key scope : String) (now : Stamp) :
    isPending (inProgressIdempotency key scope now) (inProgressIdempotency key scope now) = true :=
  isPending_iff.mpr ⟨rfl, rfl, rfl⟩

@[simp] theorem status_resultRow (key scope : String) (receipt : Receipt) (taskId : Option String) (now : Stamp)
    (row : Option (IdempotencyRecord Stamp)) : (resultRow key scope receipt taskId now row).status = receipt.status := by
  cases row with
  | none => rfl
  | some row => rfl

@[simp] theorem taskId_resultRow (key scope : String) (receipt : Receipt) (taskId : Option String) (now : Stamp)
    (row : Option (IdempotencyRecord Stamp)) : (resultRow key scope receipt taskId now row).taskId = taskId := by
  cases row with
  | none => rfl
  | some row => rfl

theorem getIdempotency_upsertResult (rows : IdempotencyTable Stamp) (key scope : String) (receipt : Receipt)
    (taskId : Option String) (now : Stamp) (scope' key' : String) :
    getIdempotency (upsertResult rows key scope receipt taskId now) scope' key' =
      if (scope', key') = (scope, key) then some (resultRow key scope receipt taskId now (getIdempotency rows scope key))
      else getIdempotency rows scope' key' := by
  rw [upsertResult]
  cases hslot : getIdempotency rows scope key with
  | none =>
    dsimp only
    rw [getIdempotency_append]
    by_cases heq : (scope', key') = (scope, key)
    · obtain ⟨rfl, rfl⟩ := Prod.mk.inj heq
      rw [hslot, if_pos rfl]
      exact if_pos rfl
    · have hne : (resultRow key scope receipt taskId now none).slot ≠ (scope', key') := fun h => heq h.symm
      rw [if_neg hne, if_neg heq, Option.or_none]
  | some row =>
    have hkey : ∀ r : IdempotencyRecord Stamp, decide (r.slot = (scope, key)) = true →
        (resultRow key scope receipt taskId now (some r)).slot = r.slot := fun _ _ => rfl
    refine (lookup_updateWhere hkey (scope', key')).trans ?_
    by_cases heq : (scope', key') = (scope, key)
    · obtain ⟨rfl, rfl⟩ := Prod.mk.inj heq
      have hrow : lookup IdempotencyRecord.slot (scope', key') rows = some row := hslot
      rw [hrow, Option.map_some, if_pos rfl, if_pos (decide_eq_true (slot_getIdempotency hslot))]
    · rw [if_neg heq, getIdempotency]
      cases hother : lookup IdempotencyRecord.slot (scope', key') rows with
      | none => rfl
      | some other =>
        have hne : other.slot ≠ (scope, key) := fun h => heq ((lookup_some hother).2.symm.trans h)
        rw [Option.map_some, if_neg (by simpa using hne)]

theorem slot_resultRow {row : Option (IdempotencyRecord Stamp)} (h : ∀ r ∈ row, r.slot = (scope, key)) (receipt : Receipt)
    (taskId : Option String) (now : Stamp) : (resultRow key scope receipt taskId now row).slot = (scope, key) := by
  cases row with
  | none => rfl
  | some row => exact h row rfl

theorem upsertResult_eq_upsertRow (h : UniqueKey IdempotencyRecord.slot rows) (key scope : String) (receipt : Receipt)
    (taskId : Option String) (now : Stamp) :
    upsertResult rows key scope receipt taskId now =
      upsertRow IdempotencyRecord.slot (resultRow key scope receipt taskId now (getIdempotency rows scope key)) rows := by
  rw [upsertResult]
  cases hrow : getIdempotency rows scope key with
  | none =>
    have habsent : lookup IdempotencyRecord.slot (resultRow key scope receipt taskId now none).slot rows = none := hrow
    exact (upsertRow_of_absent habsent).symm
  | some row =>
    have hslot := slot_getIdempotency hrow
    have hself : lookup IdempotencyRecord.slot row.slot rows = some row := hslot ▸ hrow
    refine (h.upsertRow_eq_updateWhere hself (fun r _ => ?_) rfl).symm
    rw [hslot, decide_eq_true_eq]

theorem snd_setIdempotencyResult (rows : IdempotencyTable Stamp) (key scope : String) (receipt : Receipt)
    (taskId : Option String) (now : Stamp) :
    (setIdempotencyResult rows key scope receipt taskId now).2 = upsertResult rows key scope receipt taskId now := by
  rw [setIdempotencyResult]
  split
  · rfl
  · rfl

end Slots

section JobRows

variable {Stamp : Type} {rows : JobTable Stamp}

theorem taskId_getJob {taskId : String} {job : JobRecord Stamp} (h : getJob rows taskId = some job) :
    job.taskId = taskId := (lookup_some h).2

theorem snd_updateJob {patch : JobPatch Stamp} (hpatch : patch.isIdle = false) (taskId : String) (now : Stamp) :
    (updateJob rows taskId patch now).2 = updateWhere (fun j => j.taskId = taskId) (patch.write now) rows := by
  rw [updateJob, hpatch]
  split
  · rfl
  · rfl

theorem getJob_updateJob (rows : JobTable Stamp) {patch : JobPatch Stamp} (hpatch : patch.isIdle = false)
    (taskId : String) (now : Stamp) (taskId' : String) :
    getJob (updateJob rows taskId patch now).2 taskId' =
      (getJob rows taskId').map fun job => if taskId' = taskId then patch.write now job else job := by
  have hkey : ∀ j : JobRecord Stamp, decide (j.taskId = taskId) = true → (patch.write now j).taskId = j.taskId :=
    fun _ _ => rfl
  rw [snd_updateJob hpatch, getJob, lookup_updateWhere hkey, getJob]
  cases hjob : lookup JobRecord.taskId taskId' rows with
  | none => rfl
  | some job => simp [(lookup_some hjob).2]

theorem updateJob_of_some {patch : JobPatch Stamp} (hpatch : patch.isIdle = false) {taskId : String} {row : JobRecord Stamp}
    (hrow : getJob rows taskId = some row) (now : Stamp) :
    updateJob rows taskId patch now =
      (.ok (patch.write now row), updateWhere (fun j => j.taskId = taskId) (patch.write now) rows) := by
  have hget := getJob_updateJob rows hpatch taskId now taskId
  rw [snd_updateJob hpatch, hrow, Option.map_some, if_pos rfl] at hget
  simp only [updateJob, hpatch, Bool.false_eq_true, if_false, hget]

theorem updateJob_of_none {patch : JobPatch Stamp} (hpatch : patch.isIdle = false) {taskId : String}
    (hrow : getJob rows taskId = none) (now : Stamp) :
    updateJob rows taskId patch now = (.error (.keyError taskId), rows) := by
  have hsame : updateWhere (fun j => j.taskId = taskId) (patch.write now) rows = rows :=
    updateWhere_eq_self _ fun j hj => decide_eq_false (lookup_eq_none.mp hrow j hj)
  simp only [updateJob, hpatch, Bool.false_eq_true, if_false, hsame, hrow]

theorem createJob_of_none {job : JobRecord Stamp} (h : getJob rows job.taskId = none) :
    createJob rows job = (.ok job.taskId, rows ++ [job]) := by
  rw [createJob, h]

theorem createJob_of_some {job row : JobRecord Stamp} (h : getJob rows job.taskId = some row) :
    createJob rows job = (.error .integrityError, rows) := by
  rw [createJob, h]

theorem mem_listJobs [LinearOrder Stamp] {f : JobFilter} {job : JobRecord Stamp} (h : job ∈ listJobs rows f) :
    job ∈ rows ∧ f.selects job = true := by
  have hmem := List.mem_of_mem_take h
  rw [← List.mem_filter]
  split at hmem
  · exact (List.mem_insertionSort _).mp hmem
  · exact (List.mem_insertionSort _).mp hmem

/-- The order in which the rows are visited does not matter where the result has no ties. -/
theorem listJobs_perm [LinearOrder Stamp] {f : JobFilter} {visited : JobTable Stamp} (hperm : visited.Perm rows)
    (hids : UniqueKey JobRecord.taskId rows)
    (hties : f.order = some "recent" ∨ (rows.filter f.selects).Pairwise fun a b => a.createdAt < b.createdAt) :
    listJobs visited f = listJobs rows f := by
  have hselected : (visited.filter f.selects).Perm (rows.filter f.selects) := hperm.filter _
  have hsorted : ∀ (r : JobRecord Stamp → JobRecord Stamp → Prop) [DecidableRel r] [Std.Total r] [IsTrans (JobRecord Stamp) r],
      (∀ a ∈ rows.filter f.selects, ∀ b ∈ rows.filter f.selects, r a b → r b a → a = b) →
      (visited.filter f.selects).insertionSort r = (rows.filter f.selects).insertionSort r := by
    intro r _ _ _ hanti
    have hboth := ((List.perm_insertionSort r _).trans hselected).trans (List.perm_insertionSort r _).symm
    refine List.Perm.eq_of_pairwise (fun a b ha hb => ?_) (List.pairwise_insertionSort r _) (List.pairwise_insertionSort r _) hboth
    exact hanti a (hselected.mem_iff.mp ((List.mem_insertionSort r).mp ha)) b ((List.mem_insertionSort r).mp hb)
  rw [listJobs, listJobs]
  by_cases hrecent : f.order = some "recent"
  · simp only [if_pos hrecent]
    rw [hsorted moreRecent]
    rintro a ha b hb (hab | ⟨hab, hid⟩) (hba | ⟨hba, hid'⟩)
    · exact absurd hab hba.not_gt
    · exact absurd hba hab.ne'
    · exact absurd hab hba.ne'
    · exact hids.eq_of_key_eq (List.mem_filter.mp ha).1 (List.mem_filter.mp hb).1 (le_antisymm hid' hid)
  · simp only [if_neg hrecent]
    rw [hsorted createdBefore]
    have hne : (rows.filter f.selects).Pairwise fun a b => a.createdAt ≠ b.createdAt :=
      (hties.resolve_left hrecent).imp fun hlt => hlt.ne
    have hsymm : Std.Symm fun a b : JobRecord Stamp => a.createdAt ≠ b.createdAt := ⟨fun _ _ h => h.symm⟩
    intro a ha b hb hab hba
    by_contra hdiff
    exact hne.forall ha hb hdiff (le_antisymm hab hba)

end JobRows

end OpenMinion.A2AStateStore
