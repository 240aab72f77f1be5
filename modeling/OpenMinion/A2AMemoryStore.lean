import Mathlib.Data.String.Basic
import OpenMinion.A2AStateStore
import OpenMinion.TransitionRuns

/-!
# The in-memory state store of the agent-to-agent runtime

`MemoryStateStore` has dictionaries in place of tables. Given the same arguments and clock readings, it returns what
the durable store does as long as no call is made on which the two differ.
-/
namespace OpenMinion.A2AMemoryStore
open A2AStateStore KeyedTables PythonText TransitionRuns

abbrev Record := IdempotencyRecord String
abbrev Job := JobRecord String
abbrev Patch := JobPatch String

/-- A text that `iso_now` returns. -/
abbrev ClockText := { text : String // text ≠ "" }

/-- The dictionaries `_idempotency` and `_jobs`, as their items in insertion order. -/
structure Dictionaries where
  idempotency : List ((String × String) × Record) := []
  jobs : List (String × Job) := []

/-- `d.get(key)` and `d[key] = value`. -/
def get {Key Value : Type} [DecidableEq Key] (d : List (Key × Value)) (key : Key) : Option Value :=
  (lookup Prod.fst key d).map Prod.snd

def set {Key Value : Type} [DecidableEq Key] (d : List (Key × Value)) (key : Key) (value : Value) : List (Key × Value) :=
  upsertRow Prod.fst (key, value) d

section Memory

variable (d : Dictionaries)

def memoryReserve (key scope : String) (now : ClockText) : (Bool × Option Record) × Dictionaries :=
  match get d.idempotency (scope, key) with
  | some row => ((false, some row), d)
  | none =>
    let record : Record := { key, scope, status := statusInProgress, createdAt := now, updatedAt := now }
    ((true, some record), { d with idempotency := set d.idempotency (scope, key) record })

def memoryFinish (reservation : Record) (receipt : Receipt) (now : ClockText) : Bool × Dictionaries :=
  match get d.idempotency (reservation.scope, reservation.key) with
  | none => (false, d)
  | some row =>
    if row.status ≠ statusInProgress ∨ row.createdAt ≠ reservation.createdAt then (false, d)
    else
      let idempotency := set d.idempotency (reservation.scope, reservation.key) (receipt.write now.1 row)
      (true, { d with idempotency })

/-- A new record takes its `created_at` from a later clock reading. -/
def memorySetResult (key scope : String) (receipt : Receipt) (taskId : Option String) (now created : ClockText) :
    Record × Dictionaries :=
  let existing : Record := (get d.idempotency (scope, key)).getD
    { key, scope, status := receipt.status, createdAt := created, updatedAt := created }
  let record : Record := { receipt.write now.1 existing with taskId }
  let record := if record.createdAt = "" then { record with createdAt := now.1 } else record
  (record, { d with idempotency := set d.idempotency (scope, key) record })

def memoryCreateJob (job : Job) : String × Dictionaries :=
  (job.taskId, { d with jobs := set d.jobs job.taskId job })

/-- `data.update(patch)` on the fields of a record. -/
def overlay (patch : Patch) (job : Job) : Job where
  taskId := patch.taskId.getD job.taskId
  traceId := patch.traceId.getD job.traceId
  idempotencyKey := patch.idempotencyKey.getD job.idempotencyKey
  agentId := patch.agentId.getD job.agentId
  method := patch.method.getD job.method
  state := patch.state.getD job.state
  currentStep := patch.currentStep.getD job.currentStep
  progress := patch.progress.getD job.progress
  resultInline := patch.resultInline.getD job.resultInline
  resultRef := patch.resultRef.getD job.resultRef
  error := patch.error.getD job.error
  ownerAgentId := patch.ownerAgentId.getD job.ownerAgentId
  idempotencyScope := patch.idempotencyScope.getD job.idempotencyScope
  createdAt := patch.createdAt.getD job.createdAt
  updatedAt := patch.updatedAt.getD job.updatedAt
  heartbeatAt := patch.heartbeatAt.getD job.heartbeatAt

/-- `updated_at` is a field of every record, so its default is never used. -/
def memoryUpdateJob (taskId : String) (patch : Patch) (now : ClockText) : Except StoreError Job × Dictionaries :=
  match get d.jobs taskId with
  | none => (.error (.keyError taskId), d)
  | some current =>
    let data := overlay patch current
    let data := if patch.heartbeatAt = none ∧ data.heartbeatAt = "" then { data with heartbeatAt := now.1 } else data
    if patch.unknown ≠ [] then (.error .typeError, d)
    else (.ok data, { d with jobs := set d.jobs taskId data })

/-- The conditions in the loop of `list_jobs`. -/
def memorySelects (f : JobFilter) (job : Job) : Bool :=
  applies f.state (job.state = ·) &&
    (match f.states with
      | none => true
      | some states => states.isEmpty || states.contains job.state) &&
    applies (f.ownerAgentId.map strip) (job.ownerAgentId = ·) &&
    applies (f.sessionId.map strip) fun sessionId =>
      job.idempotencyScope = "job.start:" ++ job.agentId ++ ":" ++ job.method ++ ":" ++ sessionId

def memoryListJobs (f : JobFilter) : List Job :=
  let selected := (d.jobs.map Prod.snd).filter (memorySelects f)
  let ordered := if f.order = some "recent" then selected.insertionSort moreRecent else selected
  ordered.take f.rowLimit

end Memory

/-- The order in which the plan of a query visits the rows of a table. -/
structure Visit where
  order : JobTable String → JobTable String
  perm : ∀ rows, (order rows).Perm rows

inductive StoreCall where
  | reserveIdempotency (key scope : String) (now : ClockText)
  | finishIdempotency (reservation : Record) (receipt : Receipt) (now : ClockText)
  | setIdempotencyResult (key scope : String) (receipt : Receipt) (taskId : Option String) (now created : ClockText)
  | getIdempotency (scope key : String)
  | createJob (job : Job)
  | updateJob (taskId : String) (patch : Patch) (now : ClockText)
  | getJob (taskId : String)
  | listJobs (filter : JobFilter) (visit : Visit)

inductive StoreOutcome where
  | reserved (result : Bool × Option Record)
  | finished (result : Bool)
  | written (result : Except StoreError Record)
  | record (result : Option Record)
  | created (result : Except StoreError String)
  | updated (result : Except StoreError Job)
  | job (result : Option Job)
  | jobs (result : List Job)

def perform (s : StateTables String) : StoreCall → StoreOutcome × StateTables String
  | .reserveIdempotency key scope now =>
    let (result, idempotency) := reserveIdempotency s.idempotency key scope now.1
    (.reserved result, { s with idempotency })
  | .finishIdempotency reservation receipt now =>
    let (result, idempotency) := finishIdempotency s.idempotency reservation receipt now.1
    (.finished result, { s with idempotency })
  | .setIdempotencyResult key scope receipt taskId now _ =>
    let (result, idempotency) := setIdempotencyResult s.idempotency key scope receipt taskId now.1
    (.written result, { s with idempotency })
  | .getIdempotency scope key => (.record (getIdempotency s.idempotency scope key), s)
  | .createJob job =>
    let (result, jobs) := createJob s.jobs job
    (.created result, { s with jobs })
  | .updateJob taskId patch now =>
    let (result, jobs) := updateJob s.jobs taskId patch now.1
    (.updated result, { s with jobs })
  | .getJob taskId => (.job (getJob s.jobs taskId), s)
  | .listJobs filter visit => (.jobs (listJobs (visit.order s.jobs) filter), s)

def performMemory (d : Dictionaries) : StoreCall → StoreOutcome × Dictionaries
  | .reserveIdempotency key scope now =>
    let (result, d) := memoryReserve d key scope now
    (.reserved result, d)
  | .finishIdempotency reservation receipt now =>
    let (result, d) := memoryFinish d reservation receipt now
    (.finished result, d)
  | .setIdempotencyResult key scope receipt taskId now created =>
    let (result, d) := memorySetResult d key scope receipt taskId now created
    (.written (.ok result), d)
  | .getIdempotency scope key => (.record (get d.idempotency (scope, key)), d)
  | .createJob job =>
    let (result, d) := memoryCreateJob d job
    (.created (.ok result), d)
  | .updateJob taskId patch now =>
    let (result, d) := memoryUpdateJob d taskId patch now
    (.updated result, d)
  | .getJob taskId => (.job (get d.jobs taskId), d)
  | .listJobs filter _ => (.jobs (memoryListJobs d filter), d)

/-- The patch has only fields that the durable store writes. -/
def OnlyAllowed (patch : Patch) : Prop :=
  patch.unknown = [] ∧ patch.taskId = none ∧ patch.traceId = none ∧ patch.idempotencyKey = none ∧ patch.agentId = none ∧
    patch.method = none ∧ patch.ownerAgentId = none ∧ patch.idempotencyScope = none ∧ patch.createdAt = none

instance (patch : Patch) : Decidable (OnlyAllowed patch) :=
  inferInstanceAs (Decidable (patch.unknown = [] ∧ patch.taskId = none ∧ patch.traceId = none ∧
    patch.idempotencyKey = none ∧ patch.agentId = none ∧ patch.method = none ∧ patch.ownerAgentId = none ∧
    patch.idempotencyScope = none ∧ patch.createdAt = none))

/-- A filter that the memory store knows, in the form in which both stores read it. -/
def CommonFilter (f : JobFilter) : Prop :=
  f.traceId.getD "" = "" ∧ f.agentId.getD "" = "" ∧ f.method.getD "" = "" ∧
    strip (f.ownerAgentId.getD "") = f.ownerAgentId.getD "" ∧ strip (f.sessionId.getD "") = f.sessionId.getD "" ∧
    ∀ text ∈ f.states.getD [], strip text ≠ ""

instance (f : JobFilter) : Decidable (CommonFilter f) :=
  inferInstanceAs (Decidable (f.traceId.getD "" = "" ∧ f.agentId.getD "" = "" ∧ f.method.getD "" = "" ∧
    strip (f.ownerAgentId.getD "") = f.ownerAgentId.getD "" ∧ strip (f.sessionId.getD "") = f.sessionId.getD "" ∧
    ∀ text ∈ f.states.getD [], strip text ≠ ""))

def CallOk (s : StateTables String) : StoreCall → Prop
  | .setIdempotencyResult key scope _ _ now created =>
    getIdempotency s.idempotency scope key = none → created = now
  | .createJob job => getJob s.jobs job.taskId = none
  | .updateJob taskId patch now =>
    ∀ row ∈ getJob s.jobs taskId, OnlyAllowed patch ∧
      (patch.isIdle = true ∨ patch.updatedAt ≠ none ∨ row.updatedAt = now.1) ∧
      (patch.heartbeatAt ≠ none ∨ row.heartbeatAt ≠ "")
  | .listJobs f _ => CommonFilter f ∧
    (f.order = some "recent" ∨ (s.jobs.filter f.selects).Pairwise fun a b => a.createdAt < b.createdAt)
  | .reserveIdempotency _ _ _ | .finishIdempotency _ _ _ | .getIdempotency _ _ | .getJob _ => True

instance (s : StateTables String) : ∀ call : StoreCall, Decidable (CallOk s call)
  | .setIdempotencyResult key scope _ _ now created =>
    inferInstanceAs (Decidable (getIdempotency s.idempotency scope key = none → created = now))
  | .createJob job => inferInstanceAs (Decidable (getJob s.jobs job.taskId = none))
  | .updateJob taskId patch now =>
    inferInstanceAs (Decidable (∀ row ∈ getJob s.jobs taskId, OnlyAllowed patch ∧
      (patch.isIdle = true ∨ patch.updatedAt ≠ none ∨ row.updatedAt = now.1) ∧
      (patch.heartbeatAt ≠ none ∨ row.heartbeatAt ≠ "")))
  | .listJobs f _ =>
    inferInstanceAs (Decidable (CommonFilter f ∧
      (f.order = some "recent" ∨ (s.jobs.filter f.selects).Pairwise fun a b => a.createdAt < b.createdAt)))
  | .reserveIdempotency _ _ _ | .finishIdempotency _ _ _ | .getIdempotency _ _ | .getJob _ => isTrue trivial

/-- The dictionaries have the rows of the tables. -/
structure Mirrors (s : StateTables String) (d : Dictionaries) : Prop where
  idempotency : d.idempotency = keyed IdempotencyRecord.slot s.idempotency
  jobs : d.jobs = keyed JobRecord.taskId s.jobs
  slots : UniqueKey IdempotencyRecord.slot s.idempotency
  ids : UniqueKey JobRecord.taskId s.jobs
  stamped : ∀ row ∈ s.idempotency, row.createdAt ≠ ""

theorem get_keyed {Row Key : Type} [DecidableEq Key] (key : Row → Key) (t : List Row) (k : Key) :
    get (keyed key t) k = lookup key k t := by
  rw [get, lookup_keyed, Option.map_map]
  simp [Function.comp_def]

theorem set_keyed {Row Key : Type} [DecidableEq Key] (key : Row → Key) (t : List Row) (row : Row) :
    set (keyed key t) (key row) row = keyed key (upsertRow key row t) := upsertRow_keyed row

section Simulation

variable {s : StateTables String} {d : Dictionaries} (h : Mirrors s d)
include h

theorem Mirrors.get_idempotency (scope key : String) : get d.idempotency (scope, key) = getIdempotency s.idempotency scope key := by
  rw [h.idempotency, get_keyed]
  rfl

theorem Mirrors.get_job (taskId : String) : get d.jobs taskId = getJob s.jobs taskId := by
  rw [h.jobs, get_keyed]
  rfl

theorem Mirrors.setRecord {row : Record} {rows : IdempotencyTable String}
    (hrows : rows = upsertRow IdempotencyRecord.slot row s.idempotency) (hstamped : row.createdAt ≠ "") :
    Mirrors { s with idempotency := rows } { d with idempotency := set d.idempotency row.slot row } := by
  subst hrows
  refine ⟨?_, h.jobs, h.slots.upsertRow row, h.ids, ?_⟩
  · rw [h.idempotency, set_keyed]
  · intro row' hrow'
    rcases mem_upsertRow hrow' with rfl | hrow'
    · exact hstamped
    · exact h.stamped row' hrow'

theorem Mirrors.setJob {row : Job} {rows : JobTable String} (hrows : rows = upsertRow JobRecord.taskId row s.jobs) :
    Mirrors { s with jobs := rows } { d with jobs := set d.jobs row.taskId row } := by
  subst hrows
  refine ⟨h.idempotency, ?_, h.slots, h.ids.upsertRow row, h.stamped⟩
  rw [h.jobs, set_keyed]

/-- The call returns the same from both stores and leaves them alike. -/
def Agrees (s : StateTables String) (d : Dictionaries) (call : StoreCall) : Prop :=
  (perform s call).1 = (performMemory d call).1 ∧ Mirrors (perform s call).2 (performMemory d call).2

theorem Mirrors.reserve (key scope : String) (now : ClockText) : Agrees s d (.reserveIdempotency key scope now) := by
  have hget := h.get_idempotency scope key
  cases hrow : getIdempotency s.idempotency scope key with
  | some row =>
    rw [hrow] at hget
    simp only [Agrees, perform, performMemory, reserveIdempotency_of_some hrow, memoryReserve, hget]
    exact ⟨trivial, h⟩
  | none =>
    rw [hrow] at hget
    simp only [Agrees, perform, performMemory, reserveIdempotency_of_none hrow, memoryReserve, hget]
    have habsent : lookup IdempotencyRecord.slot (inProgressIdempotency key scope now.1).slot s.idempotency = none := hrow
    exact ⟨rfl, h.setRecord (upsertRow_of_absent habsent).symm now.2⟩

theorem Mirrors.finish (reservation : Record) (receipt : Receipt) (now : ClockText) :
    Agrees s d (.finishIdempotency reservation receipt now) := by
  have hget := h.get_idempotency reservation.scope reservation.key
  -- a table without a pending row of the slot stays as it is
  have hidle : (∀ row ∈ s.idempotency, isPending reservation row = false) →
      finishIdempotency s.idempotency reservation receipt now.1 = (false, s.idempotency) := by
    intro hnone
    rw [finishIdempotency, updateWhere_eq_self _ hnone, List.any_eq_false.mpr fun row hrow => by simp [hnone row hrow]]
  cases hrow : getIdempotency s.idempotency reservation.scope reservation.key with
  | none =>
    rw [hrow] at hget
    have hnone : ∀ row ∈ s.idempotency, isPending reservation row = false := by
      intro row hmem
      rw [Bool.eq_false_iff]
      intro hpending
      exact lookup_eq_none.mp hrow row hmem (isPending_iff.mp hpending).1
    simp only [Agrees, perform, performMemory, hidle hnone, memoryFinish, hget]
    exact ⟨trivial, h⟩
  | some row =>
    rw [hrow] at hget
    obtain ⟨hmem, hslot⟩ := lookup_some hrow
    have hsame : ∀ row' ∈ s.idempotency, isPending reservation row' = true → row' = row := by
      intro row' hmem' hpending
      exact h.slots.eq_of_key_eq hmem' hmem ((isPending_iff.mp hpending).1.trans hslot.symm)
    by_cases hpending : isPending reservation row = true
    · obtain ⟨-, hstatus, hcreated⟩ := isPending_iff.mp hpending
      have hany : s.idempotency.any (isPending reservation) = true := List.any_eq_true.mpr ⟨row, hmem, hpending⟩
      have hself : lookup IdempotencyRecord.slot row.slot s.idempotency = some row := hslot ▸ hrow
      have hrows : updateWhere (isPending reservation) (receipt.write now.1) s.idempotency =
          upsertRow IdempotencyRecord.slot (receipt.write now.1 row) s.idempotency := by
        refine (h.slots.upsertRow_eq_updateWhere hself (fun row' hmem' => ⟨fun hp => ?_, fun hkey => ?_⟩) rfl).symm
        · rw [hsame row' hmem' hp]
        · rw [h.slots.eq_of_key_eq hmem' hmem hkey]
          exact hpending
      simp only [Agrees, perform, performMemory, finishIdempotency, hany, memoryFinish, hget, hstatus, hcreated, ne_eq,
        not_true_eq_false, or_self, if_false]
      refine ⟨trivial, ?_⟩
      have hset := h.setRecord hrows (h.stamped row hmem)
      rw [show (receipt.write now.1 row).slot = (reservation.scope, reservation.key) from hslot] at hset
      exact hset
    · have hnone : ∀ row' ∈ s.idempotency, isPending reservation row' = false := by
        intro row' hmem'
        rw [Bool.eq_false_iff]
        intro hpending'
        rw [hsame row' hmem' hpending'] at hpending'
        exact hpending hpending'
      have hcases : row.status ≠ statusInProgress ∨ row.createdAt ≠ reservation.createdAt := by
        by_contra hboth
        obtain ⟨hstatus, hcreated⟩ := not_or.mp hboth
        exact hpending (isPending_iff.mpr ⟨hslot, not_not.mp hstatus, not_not.mp hcreated⟩)
      simp only [Agrees, perform, performMemory, hidle hnone, memoryFinish, hget, if_pos hcases]
      exact ⟨trivial, h⟩

theorem Mirrors.memorySetResult_eq (key scope : String) (receipt : Receipt) (taskId : Option String) (now created : ClockText)
    (hok : getIdempotency s.idempotency scope key = none → created = now) {record : Record}
    (hrecord : record = resultRow key scope receipt taskId now.1 (getIdempotency s.idempotency scope key)) :
    record.createdAt ≠ "" ∧ memorySetResult d key scope receipt taskId now created =
      (record, { d with idempotency := set d.idempotency (scope, key) record }) := by
  have hget := h.get_idempotency scope key
  cases hrow : getIdempotency s.idempotency scope key with
  | none =>
    obtain rfl := hok hrow
    rw [hrow] at hget hrecord
    subst hrecord
    refine ⟨created.2, ?_⟩
    simp only [memorySetResult, hget, Option.getD_none, Receipt.write, if_neg created.2, resultRow]
  | some row =>
    have hstamped := h.stamped row (lookup_some hrow).1
    rw [hrow] at hget hrecord
    subst hrecord
    refine ⟨hstamped, ?_⟩
    simp only [memorySetResult, hget, Option.getD_some, Receipt.write, if_neg hstamped, resultRow]

theorem Mirrors.setResult (key scope : String) (receipt : Receipt) (taskId : Option String) (now created : ClockText)
    (hok : getIdempotency s.idempotency scope key = none → created = now) :
    Agrees s d (.setIdempotencyResult key scope receipt taskId now created) := by
  generalize hrecord : resultRow key scope receipt taskId now.1 (getIdempotency s.idempotency scope key) = record
  obtain ⟨hstamped, hmemory⟩ := h.memorySetResult_eq key scope receipt taskId now created hok hrecord.symm
  have hrows := upsertResult_eq_upsertRow h.slots key scope receipt taskId now.1
  have hread := getIdempotency_upsertResult s.idempotency key scope receipt taskId now.1 scope key
  have hslot : record.slot = (scope, key) := by
    rw [← hrecord]
    exact slot_resultRow (fun row hrow => slot_getIdempotency hrow) receipt taskId now.1
  rw [hrecord] at hrows
  rw [if_pos rfl, hrecord] at hread
  simp only [Agrees, perform, performMemory, setIdempotencyResult, hread, hmemory]
  refine ⟨trivial, ?_⟩
  rw [← hslot]
  exact h.setRecord hrows hstamped

theorem Mirrors.create {job : Job} (hok : getJob s.jobs job.taskId = none) : Agrees s d (.createJob job) := by
  simp only [Agrees, perform, performMemory, createJob_of_none hok, memoryCreateJob]
  exact ⟨trivial, h.setJob (upsertRow_of_absent hok).symm⟩

end Simulation

/-- Both stores write the same, when `updated_at` is given or does not move. -/
theorem overlay_eq_write {patch : Patch} (hallowed : OnlyAllowed patch) {row : Job} {now : String}
    (hupdated : patch.updatedAt ≠ none ∨ row.updatedAt = now) : overlay patch row = patch.write now row := by
  obtain ⟨-, h₁, h₂, h₃, h₄, h₅, h₆, h₇, h₈⟩ := hallowed
  have hstamp : patch.updatedAt.getD row.updatedAt = patch.updatedAt.getD now := by
    cases hgiven : patch.updatedAt with
    | some stamp => rfl
    | none =>
      rcases hupdated with hsome | hsame
      · exact absurd hgiven hsome
      · exact hsame
  rw [overlay, JobPatch.write, h₁, h₂, h₃, h₄, h₅, h₆, h₇, h₈, hstamp]
  rfl

theorem overlay_eq_self {patch : Patch} (hallowed : OnlyAllowed patch) (hidle : patch.isIdle = true) (row : Job) :
    overlay patch row = row := by
  simp only [JobPatch.isIdle, Bool.and_eq_true, Option.isNone_iff_eq_none] at hidle
  obtain ⟨⟨⟨⟨⟨⟨⟨hstate, hstep⟩, hprogress⟩, hinline⟩, href⟩, herror⟩, hupdated⟩, hheartbeat⟩ := hidle
  obtain ⟨-, h₁, h₂, h₃, h₄, h₅, h₆, h₇, h₈⟩ := hallowed
  rw [overlay, h₁, h₂, h₃, h₄, h₅, h₆, h₇, h₈, hstate, hstep, hprogress, hinline, href, herror, hupdated, hheartbeat]
  rfl

theorem applies_strip {filter : Option String} (h : strip (filter.getD "") = filter.getD "") (ok : String → Bool) :
    applies (filter.map strip) ok = applies filter ok := by
  cases filter with
  | none => rfl
  | some text =>
    have htext : strip text = text := h
    rw [Option.map_some, htext]

theorem applies_of_empty {filter : Option String} (h : filter.getD "" = "") (ok : String → Bool) : applies filter ok = true := by
  cases filter with
  | none => rfl
  | some text =>
    have htext : text = "" := h
    simp [applies, htext]

theorem memorySelects_eq {f : JobFilter} (h : CommonFilter f) (job : Job) : memorySelects f job = f.selects job := by
  obtain ⟨htrace, hagent, hmethod, howner, hsession, hstates⟩ := h
  have hgiven : ∀ states, f.states = some states → statesGiven states = states := by
    intro states heq
    rw [heq] at hstates
    exact List.filter_eq_self.mpr fun text htext => decide_eq_true (hstates text htext)
  rw [memorySelects, JobFilter.selects, applies_strip howner, applies_strip hsession, applies_of_empty htrace,
    applies_of_empty hagent, applies_of_empty hmethod]
  cases hgivenStates : f.states with
  | none => simp
  | some states => simp [hgiven states hgivenStates]

section Simulation

variable {s : StateTables String} {d : Dictionaries} (h : Mirrors s d)
include h

theorem Mirrors.update (taskId : String) (patch : Patch) (now : ClockText) (hok : CallOk s (.updateJob taskId patch now)) :
    Agrees s d (.updateJob taskId patch now) := by
  have hget := h.get_job taskId
  cases hrow : getJob s.jobs taskId with
  | none =>
    rw [hrow] at hget
    have hsql : updateJob s.jobs taskId patch now.1 = (.error (.keyError taskId), s.jobs) := by
      cases hidle : patch.isIdle with
      | true => simp [updateJob, hidle, hrow]
      | false => exact updateJob_of_none hidle hrow now.1
    simp only [Agrees, perform, performMemory, hsql, memoryUpdateJob, hget]
    exact ⟨trivial, h⟩
  | some row =>
    rw [hrow] at hget
    obtain ⟨hallowed, hupdated, hheartbeat⟩ := hok row hrow
    have hbeat : ¬ (patch.heartbeatAt = none ∧ (overlay patch row).heartbeatAt = "") := by
      rintro ⟨hnone, hempty⟩
      rw [overlay, hnone] at hempty
      exact hheartbeat.elim (fun hsome => hsome hnone) fun hrowBeat => hrowBeat hempty
    have hself : lookup JobRecord.taskId row.taskId s.jobs = some row := by
      rw [taskId_getJob hrow]
      exact hrow
    have hmemory : memoryUpdateJob d taskId patch now =
        (.ok (overlay patch row), { d with jobs := set d.jobs taskId (overlay patch row) }) := by
      simp only [memoryUpdateJob, hget, if_neg hbeat, hallowed.1, ne_eq, not_true_eq_false, if_false]
    cases hidle : patch.isIdle with
    | true =>
      have hsql : updateJob s.jobs taskId patch now.1 = (.ok row, s.jobs) := by simp [updateJob, hidle, hrow]
      have hsame := overlay_eq_self hallowed hidle row
      have hrows : s.jobs = upsertRow JobRecord.taskId row s.jobs := by
        have hupsert := h.ids.upsertRow_eq_updateWhere (p := fun j => j.taskId = row.taskId) (f := id) hself (by simp) rfl
        rw [show upsertRow JobRecord.taskId row s.jobs = _ from hupsert]
        simp [updateWhere]
      simp only [Agrees, perform, performMemory, hsql, hmemory, hsame]
      refine ⟨trivial, ?_⟩
      have hset := h.setJob hrows
      rw [taskId_getJob hrow] at hset
      exact hset
    | false =>
      have hwrite : overlay patch row = patch.write now.1 row := by
        refine overlay_eq_write hallowed ?_
        simpa [hidle] using hupdated
      have hrows : updateWhere (fun j => j.taskId = taskId) (patch.write now.1) s.jobs =
          upsertRow JobRecord.taskId (patch.write now.1 row) s.jobs := by
        refine (h.ids.upsertRow_eq_updateWhere hself (fun j _ => ?_) rfl).symm
        rw [taskId_getJob hrow, decide_eq_true_eq]
      simp only [Agrees, perform, performMemory, updateJob_of_some hidle hrow, hmemory, hwrite]
      refine ⟨trivial, ?_⟩
      have htask : (patch.write now.1 row).taskId = taskId := by
        have hid := taskId_getJob hrow
        exact hid
      have hset := h.setJob hrows
      rw [htask] at hset
      exact hset

theorem Mirrors.list (f : JobFilter) (visit : Visit) (hok : CallOk s (.listJobs f visit)) : Agrees s d (.listJobs f visit) := by
  obtain ⟨hfilter, horder⟩ := hok
  have hjobs : d.jobs.map Prod.snd = s.jobs := by
    rw [h.jobs, keyed, List.map_map]
    exact List.map_id' _
  have hselected : (d.jobs.map Prod.snd).filter (memorySelects f) = s.jobs.filter f.selects := by
    rw [hjobs]
    exact List.filter_congr fun job _ => memorySelects_eq hfilter job
  have hlist : memoryListJobs d f = listJobs s.jobs f := by
    rw [memoryListJobs, listJobs, hselected]
    by_cases hrecent : f.order = some "recent"
    · simp only [if_pos hrecent]
    · have hsorted : (s.jobs.filter f.selects).Pairwise createdBefore := (horder.resolve_left hrecent).imp fun hlt => hlt.le
      simp only [if_neg hrecent, hsorted.insertionSort_eq]
  simp only [Agrees, perform, performMemory, hlist, listJobs_perm (visit.perm s.jobs) h.ids horder]
  exact ⟨trivial, h⟩

theorem Mirrors.perform (call : StoreCall) (hok : CallOk s call) : Agrees s d call := by
  cases call with
  | reserveIdempotency key scope now => exact h.reserve key scope now
  | finishIdempotency reservation receipt now => exact h.finish reservation receipt now
  | setIdempotencyResult key scope receipt taskId now created => exact h.setResult key scope receipt taskId now created hok
  | getIdempotency scope key =>
    simp only [Agrees, A2AMemoryStore.perform, performMemory, h.get_idempotency]
    exact ⟨trivial, h⟩
  | createJob job => exact h.create hok
  | updateJob taskId patch now => exact h.update taskId patch now hok
  | getJob taskId =>
    simp only [Agrees, A2AMemoryStore.perform, performMemory, h.get_job]
    exact ⟨trivial, h⟩
  | listJobs f visit => exact h.list f visit hok

end Simulation

end OpenMinion.A2AMemoryStore
