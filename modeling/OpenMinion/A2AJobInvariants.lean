import OpenMinion.A2AJobs

/-!
# The tables of agent-to-agent jobs

What a move of a process does to the tables, in six cases. After every run a job has an id, a slot and a record of its
own, and what an operation has read of a job names the job and its slot.
-/
namespace OpenMinion.A2AJobInvariants
open A2ACalls (Envelope A2AError idempotencyScope)
open A2AJobs A2AStateStore InterleavedThreads IsoTimestamps KeyedTables TransitionRuns

/-- A job of the table with this id and this slot. No step changes either. -/
def Has (s : Tables) (taskId : String) (slot : String × String) : Prop :=
  ∃ row ∈ s.jobs, row.taskId = taskId ∧ recordSlot row = slot

def Known (s : Tables) (job : Job) : Prop := Has s job.taskId (recordSlot job)

theorem known_of_mem {s : Tables} {job : Job} (h : job ∈ s.jobs) : Known s job := ⟨job, h, rfl, rfl⟩

theorem known_of_getJob {s : Tables} {taskId : String} {job : Job} (h : getJob s.jobs taskId = some job) : Known s job :=
  known_of_mem (lookup_some h).1

section Patches

variable (change : Change) (now : DateTime) (job : Job)

@[simp] theorem isIdle_patch : (change.patch now).isIdle = false := by
  cases change <;> simp [Change.patch, JobPatch.isIdle]

@[simp] theorem taskId_write : ((change.patch now).write now job).taskId = job.taskId := rfl

@[simp] theorem recordSlot_write : recordSlot ((change.patch now).write now job) = recordSlot job := rfl

@[simp] theorem state_write : ((change.patch now).write now job).state = change.state := by
  cases change <;> simp [Change.patch, JobPatch.write, Change.state]

end Patches

theorem idempotencyScope_ne_empty (e : Envelope) (agent : String) : idempotencyScope e agent ≠ "" := by
  intro heq
  have hlength := congrArg String.length heq
  rw [idempotencyScope] at hlength
  split at hlength <;> simp at hlength

@[simp] theorem recordSlot_newJob (e : Envelope) (agent taskId : String) (now : DateTime) :
    recordSlot (newJob e agent taskId now) = (idempotencyScope e agent, e.idempotencyKey) := by
  simp [recordSlot, newJob, idempotencyScope_ne_empty]

def AfterOk (s : Tables) : After → Prop
  | .worker _ _ | .canceled => True
  | .status job _ => Known s job
  | .rows rest _ _ => ∀ job ∈ rest, Known s job

def PlaceOk (s : Tables) : Place → Prop
  | .idle _ => True
  | .reserved e agent =>
    getIdempotency s.idempotency (idempotencyScope e agent) e.idempotencyKey ≠ none ∧
      ∀ row ∈ s.jobs, recordSlot row ≠ (idempotencyScope e agent, e.idempotencyKey)
  | .created e agent taskId => Has s taskId (idempotencyScope e agent, e.idempotencyKey)
  | .updating job slot _ after => Has s job.taskId slot ∧ AfterOk s after
  | .recording job slot _ after => Has s job.taskId slot ∧ AfterOk s after
  | .rereading job _ => Known s job

def WorkersOk (s : Tables) (workers : List Worker) : Prop :=
  ∀ w ∈ workers, Has s w.taskId (w.scope, w.e.idempotencyKey)

/-- What is known of a process. -/
structure ProcessOk (s : Tables) (p : Process) : Prop where
  place : PlaceOk s p.place
  workers : WorkersOk s p.workers

/-- Every job has its own id and its own slot, with a record. -/
structure TablesOk (s : Tables) : Prop where
  ids : UniqueKey JobRecord.taskId s.jobs
  slots : UniqueKey recordSlot s.jobs
  record : ∀ row ∈ s.jobs, getIdempotency s.idempotency (recordSlot row).1 (recordSlot row).2 ≠ none

/-- The slot that `job_start` has reserved and not used yet. -/
def reservedSlot : Place → Option (String × String)
  | .reserved e agent => some (idempotencyScope e agent, e.idempotencyKey)
  | _ => none

def isRecording : Place → Bool
  | .recording _ _ _ _ => true
  | _ => false

/-- A place without a reservation and without a receipt to write. -/
structure Unbound (place : Place) : Prop where
  reserved : reservedSlot place = none
  recording : isRecording place = false

theorem unbound_idle (outcome : Option Outcome) : Unbound (.idle outcome) := ⟨rfl, rfl⟩

theorem unbound_updating (job : Job) (slot : String × String) (change : Change) (after : After) :
    Unbound (.updating job slot change after) := ⟨rfl, rfl⟩

section Reads

variable {s : Tables}

theorem recoverRows_ok (p : Process) (now : DateTime) {rows : List Job} (h : ∀ job ∈ rows, Known s job)
    (recovered : List String) : PlaceOk s (p.recoverRows now rows recovered) := by
  induction rows generalizing recovered with
  | nil => trivial
  | cons job rest ih =>
    have hrest : ∀ j ∈ rest, Known s j := fun j hj => h j (List.mem_cons_of_mem job hj)
    rw [Process.recoverRows]
    split
    · exact ⟨h job List.mem_cons_self, hrest⟩
    · exact ih hrest recovered

theorem unbound_cancelOrReturn (job : Job) (cancel : Bool) : Unbound (Process.cancelOrReturn job cancel) := by
  rw [Process.cancelOrReturn]
  split
  · exact unbound_updating _ _ _ _
  · exact unbound_idle _

theorem cancelOrReturn_ok {job : Job} (h : Known s job) (cancel : Bool) :
    PlaceOk s (Process.cancelOrReturn job cancel) := by
  rw [Process.cancelOrReturn]
  split
  · exact ⟨h, trivial⟩
  · trivial

theorem statusRead_ok (p : Process) (taskId : String) (cancel : Bool) (now : DateTime) :
    PlaceOk s (p.statusRead taskId (getJob s.jobs taskId) cancel now) ∧
      Unbound (p.statusRead taskId (getJob s.jobs taskId) cancel now) := by
  cases hread : getJob s.jobs taskId with
  | none => exact ⟨trivial, unbound_idle _⟩
  | some job =>
    rw [Process.statusRead]
    split
    · exact ⟨⟨known_of_getJob hread, known_of_getJob hread⟩, unbound_updating _ _ _ _⟩
    · exact ⟨cancelOrReturn_ok (known_of_getJob hread) cancel, unbound_cancelOrReturn job cancel⟩

end Reads

/-- Workers are marked or dropped, and keep what they were started with. -/
def Inherits (workers workers' : List Worker) : Prop :=
  ∀ w' ∈ workers', ∃ w ∈ workers, w'.taskId = w.taskId ∧ w'.scope = w.scope ∧ w'.e = w.e

theorem Inherits.refl (workers : List Worker) : Inherits workers workers := fun w hw => ⟨w, hw, rfl, rfl, rfl⟩

theorem Inherits.workersOk {s : Tables} {workers workers' : List Worker} (h : Inherits workers workers')
    (hok : WorkersOk s workers) : WorkersOk s workers' := by
  intro w' hw'
  obtain ⟨w, hw, htask, hscope, he⟩ := h w' hw'
  rw [htask, hscope, he]
  exact hok w hw

section Workers

variable (p : Process) (taskId : String)

theorem inherits_setPhase (phase : Phase) : Inherits p.workers (p.setPhase taskId phase).workers := by
  intro w' hw'
  obtain ⟨w, hw, rfl⟩ := List.mem_map.mp hw'
  refine ⟨w, hw, ?_⟩
  split
  · exact ⟨rfl, rfl, rfl⟩
  · exact ⟨rfl, rfl, rfl⟩

theorem inherits_forgetJob : Inherits p.workers (p.forgetJob taskId).workers := by
  intro w hw
  exact ⟨w, (List.mem_filter.mp hw).1, rfl, rfl, rfl⟩

theorem inherits_cancelWorker : Inherits p.workers (p.cancelWorker taskId).workers := by
  intro w' hw'
  obtain ⟨w, hw, rfl⟩ := List.mem_map.mp hw'
  refine ⟨w, (List.mem_filter.mp hw).1, ?_⟩
  split
  · exact ⟨rfl, rfl, rfl⟩
  · exact ⟨rfl, rfl, rfl⟩

end Workers

theorem resume_ok {s : Tables} {after : After} (h : AfterOk s after) (p : Process) (job : Job) :
    PlaceOk s (p.resume job after).place := by
  cases after with
  | worker taskId phase => trivial
  | status read cancel => exact h
  | canceled => trivial
  | rows rest recovered now => exact recoverRows_ok p now h recovered

theorem unbound_recoverRows (p : Process) (now : DateTime) (rows : List Job) (recovered : List String) :
    Unbound (p.recoverRows now rows recovered) := by
  induction rows generalizing recovered with
  | nil => exact unbound_idle _
  | cons job rest ih =>
    rw [Process.recoverRows]
    split
    · exact unbound_updating _ _ _ _
    · exact ih recovered

theorem unbound_resume (p : Process) (job : Job) (after : After) : Unbound (p.resume job after).place := by
  cases after with
  | worker taskId phase => exact unbound_idle _
  | status read cancel => exact ⟨rfl, rfl⟩
  | canceled => exact unbound_idle _
  | rows rest recovered now => exact unbound_recoverRows p now rest recovered

theorem inherits_resume (p : Process) (job : Job) (after : After) : Inherits p.workers (p.resume job after).workers := by
  cases after with
  | worker taskId phase => exact inherits_setPhase p taskId phase
  | status read cancel => exact .refl _
  | canceled => exact .refl _
  | rows rest recovered now => exact .refl _

/-- The tables after `reserve_idempotency`, `create_job`, `update_job` and `set_idempotency_result`. -/
def afterReserve (s : Tables) (e : Envelope) (agent : String) (now : DateTime) : Tables :=
  { s with idempotency := s.idempotency ++ [inProgressIdempotency e.idempotencyKey (idempotencyScope e agent) now] }

def afterCreate (s : Tables) (e : Envelope) (agent taskId : String) (now : DateTime) : Tables :=
  { s with jobs := s.jobs ++ [newJob e agent taskId now] }

def afterUpdate (s : Tables) (taskId : String) (change : Change) (now : DateTime) : Tables :=
  { s with jobs := updateWhere (fun j => j.taskId = taskId) ((change.patch now).write now) s.jobs }

def afterRecord (s : Tables) (slot : String × String) (receipt : Receipt) (taskId : String) (now : DateTime) : Tables :=
  { s with idempotency := upsertResult s.idempotency slot.2 slot.1 receipt (some taskId) now }

theorem getIdempotency_afterRecord (s : Tables) (slot : String × String) (receipt : Receipt) (taskId : String)
    (now : DateTime) (slot' : String × String) :
    getIdempotency (afterRecord s slot receipt taskId now).idempotency slot'.1 slot'.2 =
      if slot' = slot then
        some (resultRow slot.2 slot.1 receipt (some taskId) now (getIdempotency s.idempotency slot.1 slot.2))
      else getIdempotency s.idempotency slot'.1 slot'.2 :=
  getIdempotency_upsertResult s.idempotency slot.2 slot.1 receipt (some taskId) now slot'.1 slot'.2

/-- What a move can do. -/
inductive Effect (s : Tables) (p : Process) : Move → Tables → Process → Prop where
  | quiet {m : Move} {p' : Process} (hworkers : Inherits p.workers p'.workers)
      (hplace : p'.place = p.place ∨
        Unbound p.place ∧ Unbound p'.place ∧ (ProcessOk s p → PlaceOk s p'.place)) : Effect s p m s p'
  | collide {e : Envelope} {agent : String} {now : DateTime} {freshId : FreshId} (outcome : Option Outcome)
      (hplace : p.place = .reserved e agent) (htaken : getJob s.jobs freshId ≠ none) :
      Effect s p (.advance now freshId) s (p.become (.idle outcome))
  | reserve {m : Move} {e : Envelope} {agent : String} {now : DateTime} (hunbound : Unbound p.place)
      (habsent : getIdempotency s.idempotency (idempotencyScope e agent) e.idempotencyKey = none) :
      Effect s p m (afterReserve s e agent now) (p.become (.reserved e agent))
  | create {e : Envelope} {agent : String} {now : DateTime} {freshId : FreshId}
      (hplace : p.place = .reserved e agent) (habsent : getJob s.jobs freshId = none) :
      Effect s p (.advance now freshId) (afterCreate s e agent freshId now) (p.become (.created e agent freshId))
  | link {e : Envelope} {agent taskId : String} {now : DateTime} {freshId : FreshId} {p' : Process}
      (hplace : p.place = .created e agent taskId) (hplace' : ∃ outcome, p'.place = .idle outcome)
      (hworkers : p'.workers = p.workers ++ [⟨taskId, e, idempotencyScope e agent, .queued, false⟩]) :
      Effect s p (.advance now freshId)
        (afterRecord s (idempotencyScope e agent, e.idempotencyKey) { status := statusInProgress } taskId now) p'
  | update {job row : Job} {slot : String × String} {change : Change} {after : After} {now : DateTime}
      {freshId : FreshId} {p' : Process} (hplace : p.place = .updating job slot change after)
      (hrow : getJob s.jobs job.taskId = some row) (hworkers : Inherits p.workers p'.workers)
      (hplace' : (∃ receipt slot', change.receipt = some receipt ∧ (slot' = slot ∨ slot' = recordSlot row) ∧
          p'.place = .recording ((change.patch now).write now row) slot' receipt after) ∨
        change.receipt = none ∧ p'.place = (p.resume ((change.patch now).write now row) after).place) :
      Effect s p (.advance now freshId) (afterUpdate s job.taskId change now) p'
  | record {job : Job} {slot : String × String} {receipt : Receipt} {after : After} {now : DateTime} {freshId : FreshId}
      (hplace : p.place = .recording job slot receipt after) :
      Effect s p (.advance now freshId) (afterRecord s slot receipt job.taskId now) (p.resume job after)

section Effects

variable (s : Tables) (p : Process)

theorem Effect.stay (m : Move) : Effect s p m s p := .quiet (.refl _) (.inl rfl)

theorem effect_jobStart (hunbound : Unbound p.place) (e : Envelope) (agent : String) (now : DateTime) :
    Effect s p (.jobStart e agent now) (jobStart s p e agent now).1 (jobStart s p e agent now).2 := by
  by_cases htype : e.type = "job.start"
  · cases hslot : getIdempotency s.idempotency (idempotencyScope e agent) e.idempotencyKey with
    | none =>
      simp only [jobStart, htype, reserveIdempotency_of_none hslot]
      exact .reserve hunbound hslot
    | some record =>
      simp only [jobStart, htype, reserveIdempotency_of_some hslot]
      exact .quiet (.refl _) (.inr ⟨hunbound, unbound_idle _, fun _ => trivial⟩)
  · simp only [jobStart, ne_eq, htype, not_false_eq_true, if_true]
    exact .quiet (.refl _) (.inr ⟨hunbound, unbound_idle _, fun _ => trivial⟩)

theorem effect_markJob (m : Move) (hunbound : Unbound p.place) {w : Worker} (hw : w ∈ p.workers) (change : Change)
    (phase : Phase) : Effect s p m s (markJob s p w change phase) := by
  rw [markJob.eq_def]
  split
  · exact .quiet (inherits_setPhase p _ _) (.inl rfl)
  · next job hjob =>
    split
    · exact .quiet (inherits_setPhase p _ _) (.inl rfl)
    · refine .quiet (.refl _) (.inr ⟨hunbound, unbound_updating _ _ _ _, fun hok => ⟨?_, trivial⟩⟩)
      rw [taskId_getJob hjob]
      exact hok.workers w hw

theorem effect_markJobRaises (m : Move) (w : Worker) (message : String) : Effect s p m s (markJobRaises s p w message) := by
  rw [markJobRaises.eq_def]
  split
  · exact .quiet (inherits_setPhase p _ _) (.inl rfl)
  · split
    · exact .quiet (inherits_setPhase p _ _) (.inl rfl)
    · exact .quiet (inherits_setPhase p _ _) (.inl rfl)

theorem effect_updating {job : Job} {slot : String × String} {change : Change} {after : After}
    (hplace : p.place = .updating job slot change after) (now : DateTime) (freshId : FreshId) :
    Effect s p (.advance now freshId) (advance s p now freshId).1 (advance s p now freshId).2 := by
  have hunbound : Unbound p.place := hplace ▸ unbound_updating job slot change after
  rw [advance, hplace]
  cases hrow : getJob s.jobs job.taskId with
  | none =>
    simp only [updateJob_of_none (isIdle_patch change now) hrow]
    exact .quiet (.refl _) (.inr ⟨hunbound, unbound_idle _, fun _ => trivial⟩)
  | some row =>
    simp only [updateJob_of_some (isIdle_patch change now) hrow]
    cases hreceipt : change.receipt with
    | none =>
      have hne : change ≠ .canceled := by
        rintro rfl
        cases hreceipt
      simp only [hne, if_false]
      exact .update hplace hrow (inherits_resume p _ after) (.inr ⟨hreceipt, rfl⟩)
    | some receipt =>
      by_cases hcancel : change = .canceled
      · subst hcancel
        simp only [if_true]
        exact .update hplace hrow (inherits_cancelWorker p job.taskId)
          (.inl ⟨receipt, recordSlot row, hreceipt, .inr rfl, rfl⟩)
      · simp only [hcancel, if_false]
        exact .update hplace hrow (.refl _) (.inl ⟨receipt, slot, hreceipt, .inl rfl, rfl⟩)

theorem effect_reserved {e : Envelope} {agent : String} (hplace : p.place = .reserved e agent) (now : DateTime)
    (freshId : FreshId) : Effect s p (.advance now freshId) (advance s p now freshId).1 (advance s p now freshId).2 := by
  rw [advance, hplace]
  cases hrow : getJob s.jobs (newJob e agent freshId now).taskId with
  | none =>
    simp only [createJob_of_none hrow]
    exact .create hplace hrow
  | some row =>
    simp only [createJob_of_some hrow]
    exact .collide _ hplace (hrow ▸ Option.some_ne_none row)

theorem effect_rereading (m : Move) {job : Job} {cancel : Bool} (hplace : p.place = .rereading job cancel) :
    Effect s p m s (p.become (Process.cancelOrReturn ((getJob s.jobs job.taskId).getD job) cancel)) := by
  have hunbound : Unbound p.place := hplace ▸ ⟨rfl, rfl⟩
  refine .quiet (.refl _) (.inr ⟨hunbound, unbound_cancelOrReturn _ cancel, fun hok => cancelOrReturn_ok ?_ cancel⟩)
  have hread : PlaceOk s (.rereading job cancel) := hplace ▸ hok.place
  cases hrow : getJob s.jobs job.taskId with
  | none => exact hread
  | some row => exact known_of_getJob hrow

theorem effect_advance (now : DateTime) (freshId : FreshId) :
    Effect s p (.advance now freshId) (advance s p now freshId).1 (advance s p now freshId).2 := by
  cases hplace : p.place with
  | idle outcome =>
    rw [advance, hplace]
    exact .stay s p _
  | reserved e agent => exact effect_reserved s p hplace now freshId
  | created e agent taskId =>
    rw [advance, hplace]
    simp only [snd_setIdempotencyResult]
    exact .link hplace ⟨_, rfl⟩ rfl
  | updating job slot change after => exact effect_updating s p hplace now freshId
  | recording job slot receipt after =>
    rw [advance, hplace]
    simp only [snd_setIdempotencyResult]
    exact .record hplace
  | rereading job cancel =>
    rw [advance, hplace]
    exact effect_rereading s p _ hplace

theorem effect_read (m : Move) {outcome : Option Outcome} (hplace : p.place = .idle outcome) {place : Place} (hunbound : Unbound place)
    (hok : PlaceOk s place) : Effect s p m s (p.become place) :=
  .quiet (.refl _) (.inr ⟨hplace ▸ unbound_idle outcome, hunbound, fun _ => hok⟩)

theorem mem_of_worker {taskId : String} {w : Worker} (h : p.worker taskId = some w) : w ∈ p.workers :=
  List.mem_of_find?_eq_some h

theorem effect_move (m : Move) : Effect s p m (move s p m).1 (move s p m).2 := by
  rw [move.eq_def]
  split
  · next e agent now outcome hplace => exact effect_jobStart s p (hplace ▸ unbound_idle outcome) e agent now
  · next taskId now outcome hplace =>
    exact effect_read s p _ hplace (statusRead_ok p taskId false now).2 (statusRead_ok p taskId false now).1
  · next taskId now outcome hplace =>
    exact effect_read s p _ hplace (statusRead_ok p taskId true now).2 (statusRead_ok p taskId true now).1
  · next now outcome hplace =>
    refine effect_read s p _ hplace (unbound_recoverRows p now _ []) (recoverRows_ok p now ?_ [])
    exact fun job hjob => known_of_mem (mem_listJobs hjob).1
  · next taskId outcome hplace =>
    have hunbound : Unbound p.place := hplace ▸ unbound_idle outcome
    split
    · next w hw =>
      split
      · exact effect_markJob s p _ hunbound (mem_of_worker p hw) _ _
      · exact .stay s p _
    · exact .stay s p _
  · next taskId storage outcome hplace =>
    have hunbound : Unbound p.place := hplace ▸ unbound_idle outcome
    split
    · next w hw =>
      split
      · exact effect_markJob s p _ hunbound (mem_of_worker p hw) _ _
      · exact effect_markJob s p _ hunbound (mem_of_worker p hw) _ _
      · exact effect_markJobRaises s p _ w _
      · exact .stay s p _
    · exact .stay s p _
  · next taskId outcome hplace =>
    have hunbound : Unbound p.place := hplace ▸ unbound_idle outcome
    split
    · next w hw =>
      split
      · exact effect_markJob s p _ hunbound (mem_of_worker p hw) _ _
      · exact .stay s p _
    · exact .stay s p _
  · next taskId outcome hplace =>
    split
    · split
      · exact .quiet (inherits_forgetJob p taskId) (.inl rfl)
      · exact .stay s p _
    · exact .stay s p _
  · exact effect_advance s p _ _
  · split
    · split
      · exact .quiet (inherits_setPhase p _ _) (.inl rfl)
      · exact .stay s p _
    · exact .stay s p _
  · split
    · split
      · exact .quiet (inherits_setPhase p _ _) (.inl rfl)
      · exact .stay s p _
    · exact .stay s p _
  · exact .stay s p _

end Effects

/-- Jobs and records are only added and changed. -/
structure Grows (s s' : Tables) : Prop where
  has : ∀ taskId slot, Has s taskId slot → Has s' taskId slot
  record : ∀ slot : String × String, getIdempotency s.idempotency slot.1 slot.2 ≠ none →
    getIdempotency s'.idempotency slot.1 slot.2 ≠ none

theorem Grows.afterOk {s s' : Tables} (h : Grows s s') {after : After} (hafter : AfterOk s after) : AfterOk s' after := by
  cases after with
  | worker taskId phase => trivial
  | status job cancel => exact h.has _ _ hafter
  | canceled => trivial
  | rows rest recovered now => exact fun job hjob => h.has _ _ (hafter job hjob)

theorem Grows.workersOk {s s' : Tables} (h : Grows s s') {workers : List Worker} (hworkers : WorkersOk s workers) :
    WorkersOk s' workers := fun w hw => h.has _ _ (hworkers w hw)

theorem Grows.processOk {s s' : Tables} (h : Grows s s') {p : Process} (hp : ProcessOk s p)
    (hfree : ∀ slot, reservedSlot p.place = some slot → (∀ row ∈ s.jobs, recordSlot row ≠ slot) →
      ∀ row ∈ s'.jobs, recordSlot row ≠ slot) : ProcessOk s' p := by
  refine ⟨?_, h.workersOk hp.workers⟩
  have hplace := hp.place
  cases heq : p.place with
  | idle outcome => trivial
  | reserved e agent =>
    rw [heq] at hplace hfree
    exact ⟨h.record (idempotencyScope e agent, e.idempotencyKey) hplace.1, hfree _ rfl hplace.2⟩
  | created e agent taskId =>
    rw [heq] at hplace
    exact h.has _ _ hplace
  | updating job slot change after =>
    rw [heq] at hplace
    exact ⟨h.has _ _ hplace.1, h.afterOk hplace.2⟩
  | recording job slot receipt after =>
    rw [heq] at hplace
    exact ⟨h.has _ _ hplace.1, h.afterOk hplace.2⟩
  | rereading job cancel =>
    rw [heq] at hplace
    exact h.has _ _ hplace

section Grows

variable (s : Tables)

theorem grows_afterReserve (e : Envelope) (agent : String) (now : DateTime) : Grows s (afterReserve s e agent now) := by
  refine ⟨fun _ _ hhas => hhas, fun slot hrecord => ?_⟩
  rw [afterReserve, getIdempotency_append]
  cases hrow : getIdempotency s.idempotency slot.1 slot.2 with
  | none => exact absurd hrow hrecord
  | some row => exact Option.some_ne_none row

theorem grows_afterCreate (e : Envelope) (agent taskId : String) (now : DateTime) :
    Grows s (afterCreate s e agent taskId now) := by
  refine ⟨fun taskId slot hhas => ?_, fun _ hrecord => hrecord⟩
  obtain ⟨row, hrow, hrest⟩ := hhas
  exact ⟨row, List.mem_append_left _ hrow, hrest⟩

theorem grows_afterRecord (slot : String × String) (receipt : Receipt) (taskId : String) (now : DateTime) :
    Grows s (afterRecord s slot receipt taskId now) := by
  refine ⟨fun _ _ hhas => hhas, fun slot' hrecord => ?_⟩
  rw [getIdempotency_afterRecord]
  split
  · exact Option.some_ne_none _
  · exact hrecord

theorem mem_afterUpdate {taskId : String} {change : Change} {now : DateTime} {row' : Job} :
    row' ∈ (afterUpdate s taskId change now).jobs ↔
      ∃ row ∈ s.jobs, row' = if row.taskId = taskId then (change.patch now).write now row else row := by
  rw [afterUpdate, mem_updateWhere]
  simp [eq_comm]

theorem recordSlot_ite (taskId : String) (change : Change) (now : DateTime) (row : Job) :
    recordSlot (if row.taskId = taskId then (change.patch now).write now row else row) = recordSlot row := by
  split
  · rfl
  · rfl

theorem taskId_ite (taskId : String) (change : Change) (now : DateTime) (row : Job) :
    (if row.taskId = taskId then (change.patch now).write now row else row).taskId = row.taskId := by
  split
  · rfl
  · rfl

theorem grows_afterUpdate (taskId : String) (change : Change) (now : DateTime) :
    Grows s (afterUpdate s taskId change now) := by
  refine ⟨fun taskId' slot hhas => ?_, fun _ hrecord => hrecord⟩
  obtain ⟨row, hrow, htask, hslot⟩ := hhas
  refine ⟨_, (mem_afterUpdate s).mpr ⟨row, hrow, rfl⟩, ?_, ?_⟩
  · rw [taskId_ite]
    exact htask
  · rw [recordSlot_ite]
    exact hslot

end Grows

section Tables

variable {s : Tables} (h : TablesOk s)
include h

theorem TablesOk.afterReserve (e : Envelope) (agent : String) (now : DateTime) :
    TablesOk (afterReserve s e agent now) :=
  ⟨h.ids, h.slots, fun row hrow => (grows_afterReserve s e agent now).record _ (h.record row hrow)⟩

theorem TablesOk.afterRecord (slot : String × String) (receipt : Receipt) (taskId : String) (now : DateTime) :
    TablesOk (afterRecord s slot receipt taskId now) :=
  ⟨h.ids, h.slots, fun row hrow => (grows_afterRecord s slot receipt taskId now).record _ (h.record row hrow)⟩

theorem TablesOk.afterUpdate (taskId : String) (change : Change) (now : DateTime) :
    TablesOk (afterUpdate s taskId change now) := by
  refine ⟨h.ids.updateWhere fun _ _ => rfl, h.slots.updateWhere fun _ _ => rfl, fun row' hrow' => ?_⟩
  obtain ⟨row, hrow, rfl⟩ := (mem_afterUpdate s).mp hrow'
  rw [recordSlot_ite]
  exact h.record row hrow

theorem TablesOk.afterCreate {e : Envelope} {agent taskId : String} (now : DateTime)
    (hplace : PlaceOk s (.reserved e agent)) (habsent : getJob s.jobs taskId = none) :
    TablesOk (afterCreate s e agent taskId now) := by
  refine ⟨h.ids.append_singleton fun row hrow => lookup_eq_none.mp habsent row hrow, ?_, ?_⟩
  · refine h.slots.append_singleton fun row hrow => ?_
    rw [recordSlot_newJob]
    exact hplace.2 row hrow
  · intro row hrow
    rcases List.mem_append.mp hrow with hrow | hrow
    · exact h.record row hrow
    · rw [List.mem_singleton.mp hrow, recordSlot_newJob]
      exact hplace.1

theorem TablesOk.slot_unique {taskId : String} {slot slot' : String × String} (hhas : Has s taskId slot)
    (hhas' : Has s taskId slot') : slot = slot' := by
  obtain ⟨row, hrow, htask, rfl⟩ := hhas
  obtain ⟨row', hrow', htask', rfl⟩ := hhas'
  rw [h.ids.eq_of_key_eq hrow hrow' (htask.trans htask'.symm)]

end Tables

variable {Proc : Type}

/-- The tables, what every process knows of them, and no slot reserved twice. -/
structure JobsOk (σ : Runtimes Proc) : Prop where
  annotated : Annotated TablesOk ProcessOk σ
  exclusive : Exclusive (fun p => reservedSlot p.place) σ

theorem jobsOk_initial (staleAfterSec : Proc → ℤ) : JobsOk (initial staleAfterSec) where
  annotated :=
    { shared := ⟨UniqueKey.nil, UniqueKey.nil, by simp [initial]⟩
      threads := fun _ => ⟨trivial, by simp [WorkersOk, initial]⟩ }
  exclusive := by
    intro p p' slot hheld
    cases hheld

variable [DecidableEq Proc] {σ : Runtimes Proc} {p : Proc}

theorem JobsOk.become (h : JobsOk σ) {s' : Tables} {q : Process} (htables : TablesOk s') (hown : ProcessOk s' q)
    (hgrows : Grows σ.shared s')
    (hfree : ∀ p', p' ≠ p → ∀ slot, reservedSlot (σ.threads p').place = some slot →
      (∀ row ∈ σ.shared.jobs, recordSlot row ≠ slot) → ∀ row ∈ s'.jobs, recordSlot row ≠ slot)
    (hheld : ∀ slot, reservedSlot q.place = some slot → reservedSlot (σ.threads p).place = some slot ∨
      ∀ p', p' ≠ p → reservedSlot (σ.threads p').place ≠ some slot) : JobsOk (σ.become p (s', q)) := by
  refine ⟨Keeps.annotated ⟨htables, hown, fun p' hp' => ?_⟩, h.exclusive.become hheld⟩
  exact hgrows.processOk (h.annotated.threads p') (hfree p' hp')

theorem Grows.refl (s : Tables) : Grows s s := ⟨fun _ _ h => h, fun _ h => h⟩

theorem ProcessOk.reserved {s : Tables} {q : Process} (h : ProcessOk s q) {slot : String × String}
    (hslot : reservedSlot q.place = some slot) :
    getIdempotency s.idempotency slot.1 slot.2 ≠ none ∧ ∀ row ∈ s.jobs, recordSlot row ≠ slot := by
  have hplace := h.place
  cases heq : q.place with
  | reserved e agent =>
    rw [heq] at hplace hslot
    obtain rfl := Option.some.inj hslot
    exact hplace
  | _ =>
    rw [heq] at hslot
    cases hslot

section Effects

variable (h : JobsOk σ)
include h

theorem JobsOk.quiet {q : Process} (hworkers : Inherits (σ.threads p).workers q.workers)
    (hplace : q.place = (σ.threads p).place ∨
      Unbound (σ.threads p).place ∧ Unbound q.place ∧ (ProcessOk σ.shared (σ.threads p) → PlaceOk σ.shared q.place)) :
    JobsOk (σ.become p (σ.shared, q)) := by
  have hok := h.annotated.threads p
  have hworkers' := hworkers.workersOk hok.workers
  rcases hplace with hsame | ⟨-, hunbound, hplace⟩
  · refine h.become h.annotated.shared ⟨hsame ▸ hok.place, hworkers'⟩ (.refl _) (fun _ _ _ _ hnone => hnone) ?_
    intro slot hslot
    rw [hsame] at hslot
    exact .inl hslot
  · refine h.become h.annotated.shared ⟨hplace hok, hworkers'⟩ (.refl _) (fun _ _ _ _ hnone => hnone) ?_
    intro slot hslot
    rw [hunbound.reserved] at hslot
    cases hslot

theorem JobsOk.reserve {e : Envelope} {agent : String} (now : DateTime)
    (habsent : getIdempotency σ.shared.idempotency (idempotencyScope e agent) e.idempotencyKey = none) :
    JobsOk (σ.become p (afterReserve σ.shared e agent now, (σ.threads p).become (.reserved e agent))) := by
  have htables := h.annotated.shared
  have hgrows := grows_afterReserve σ.shared e agent now
  refine h.become (htables.afterReserve e agent now) ⟨⟨?_, ?_⟩, hgrows.workersOk (h.annotated.threads p).workers⟩ hgrows
    (fun _ _ _ _ hnone => hnone) ?_
  · rw [afterReserve, getIdempotency_append_inProgress habsent now]
    exact Option.some_ne_none _
  · intro row hrow hslot
    have hrecord := htables.record row hrow
    rw [hslot] at hrecord
    exact hrecord habsent
  · intro slot hslot
    obtain rfl := Option.some.inj hslot
    exact .inr fun p' _ hother => ((h.annotated.threads p').reserved hother).1 habsent

theorem JobsOk.create {e : Envelope} {agent taskId : String} (now : DateTime)
    (hplace : (σ.threads p).place = .reserved e agent) (habsent : getJob σ.shared.jobs taskId = none) :
    JobsOk (σ.become p (afterCreate σ.shared e agent taskId now, (σ.threads p).become (.created e agent taskId))) := by
  have hok := h.annotated.threads p
  have hheld : reservedSlot (σ.threads p).place = some (idempotencyScope e agent, e.idempotencyKey) := by
    rw [hplace, reservedSlot]
  have hgrows := grows_afterCreate σ.shared e agent taskId now
  have hnew : newJob e agent taskId now ∈ (afterCreate σ.shared e agent taskId now).jobs :=
    List.mem_append_right _ (List.mem_singleton_self _)
  refine h.become (h.annotated.shared.afterCreate now (hplace ▸ hok.place) habsent)
    ⟨⟨_, hnew, rfl, recordSlot_newJob e agent taskId now⟩, hgrows.workersOk hok.workers⟩ hgrows ?_ ?_
  · intro p' hp' slot hslot hnone row hrow hrowSlot
    rcases List.mem_append.mp hrow with hrow | hrow
    · exact hnone row hrow hrowSlot
    · rw [List.mem_singleton.mp hrow, recordSlot_newJob] at hrowSlot
      rw [← hrowSlot] at hslot
      exact hp' (h.exclusive p' p _ hslot hheld)
  · intro slot hslot
    cases hslot

theorem JobsOk.link {e : Envelope} {agent taskId : String} (now : DateTime) {q : Process}
    (hplace : (σ.threads p).place = .created e agent taskId) (hplace' : ∃ outcome, q.place = .idle outcome)
    (hworkers : q.workers = (σ.threads p).workers ++ [⟨taskId, e, idempotencyScope e agent, .queued, false⟩]) :
    JobsOk (σ.become p (afterRecord σ.shared (idempotencyScope e agent, e.idempotencyKey)
      { status := statusInProgress } taskId now, q)) := by
  have hok := h.annotated.threads p
  have hcreated : PlaceOk σ.shared (.created e agent taskId) := hplace ▸ hok.place
  obtain ⟨outcome, hidle⟩ := hplace'
  have hgrows := grows_afterRecord σ.shared (idempotencyScope e agent, e.idempotencyKey)
    { status := statusInProgress } taskId now
  refine h.become (h.annotated.shared.afterRecord _ _ _ now) ⟨?_, hgrows.workersOk ?_⟩ hgrows
    (fun _ _ _ _ hnone => hnone) ?_
  · rw [hidle]
    trivial
  · rw [hworkers]
    intro w hw
    rcases List.mem_append.mp hw with hw | hw
    · exact hok.workers w hw
    · rw [List.mem_singleton.mp hw]
      exact hcreated
  · intro slot hslot
    rw [hidle] at hslot
    cases hslot

theorem JobsOk.write {s' : Tables} {q : Process} (htables : TablesOk s') (hgrows : Grows σ.shared s')
    (hfree : ∀ slot, (∀ row ∈ σ.shared.jobs, recordSlot row ≠ slot) → ∀ row ∈ s'.jobs, recordSlot row ≠ slot)
    (hworkers : Inherits (σ.threads p).workers q.workers) (hplace : PlaceOk s' q.place)
    (hreserved : reservedSlot q.place = none) : JobsOk (σ.become p (s', q)) := by
  refine h.become htables ⟨hplace, hworkers.workersOk (hgrows.workersOk (h.annotated.threads p).workers)⟩ hgrows
    (fun _ _ slot _ => hfree slot) ?_
  intro slot hslot
  rw [hreserved] at hslot
  cases hslot

theorem JobsOk.update {job row : Job} {slot : String × String} {change : Change} {after : After} {now : DateTime}
    {q : Process} (hplace : (σ.threads p).place = .updating job slot change after)
    (hrow : getJob σ.shared.jobs job.taskId = some row) (hworkers : Inherits (σ.threads p).workers q.workers)
    (hplace' : (∃ receipt slot', change.receipt = some receipt ∧ (slot' = slot ∨ slot' = recordSlot row) ∧
        q.place = .recording ((change.patch now).write now row) slot' receipt after) ∨
      change.receipt = none ∧ q.place = ((σ.threads p).resume ((change.patch now).write now row) after).place) :
    JobsOk (σ.become p (afterUpdate σ.shared job.taskId change now, q)) := by
  have htables := h.annotated.shared
  have hgrows := grows_afterUpdate σ.shared job.taskId change now
  have hupdating : PlaceOk σ.shared (.updating job slot change after) := hplace ▸ (h.annotated.threads p).place
  have hslot : slot = recordSlot row := by
    refine htables.slot_unique hupdating.1 ?_
    rw [← taskId_getJob hrow]
    exact known_of_getJob hrow
  have hfree : ∀ slot, (∀ row ∈ σ.shared.jobs, recordSlot row ≠ slot) →
      ∀ row ∈ (afterUpdate σ.shared job.taskId change now).jobs, recordSlot row ≠ slot := by
    intro slot hnone row' hrow'
    obtain ⟨row, hrow, rfl⟩ := (mem_afterUpdate σ.shared).mp hrow'
    rw [recordSlot_ite]
    exact hnone row hrow
  have hafter := hgrows.afterOk hupdating.2
  rcases hplace' with ⟨receipt, slot', -, hslot', hrecording⟩ | ⟨-, hresume⟩
  · refine h.write (htables.afterUpdate _ _ now) hgrows hfree hworkers ?_ ?_
    · rw [hrecording]
      refine ⟨?_, hafter⟩
      rw [taskId_write, taskId_getJob hrow]
      rcases hslot' with rfl | rfl
      · exact hgrows.has _ _ hupdating.1
      · exact hslot ▸ hgrows.has _ _ hupdating.1
    · rw [hrecording]
      rfl
  · refine h.write (htables.afterUpdate _ _ now) hgrows hfree hworkers ?_ ?_
    · rw [hresume]
      exact resume_ok hafter _ _
    · rw [hresume]
      exact (unbound_resume _ _ _).reserved

theorem JobsOk.record {job : Job} {slot : String × String} {receipt : Receipt} {after : After} (now : DateTime)
    (hplace : (σ.threads p).place = .recording job slot receipt after) :
    JobsOk (σ.become p (afterRecord σ.shared slot receipt job.taskId now, (σ.threads p).resume job after)) := by
  have hgrows := grows_afterRecord σ.shared slot receipt job.taskId now
  have hrecording : PlaceOk σ.shared (.recording job slot receipt after) := hplace ▸ (h.annotated.threads p).place
  exact h.write (h.annotated.shared.afterRecord _ _ _ now) hgrows (fun _ hnone => hnone) (inherits_resume _ job after)
    (resume_ok (hgrows.afterOk hrecording.2) _ _) (unbound_resume _ _ _).reserved

theorem JobsOk.effect {m : Move} {s' : Tables} {q : Process} (heffect : Effect σ.shared (σ.threads p) m s' q) :
    JobsOk (σ.become p (s', q)) := by
  cases heffect with
  | quiet hworkers hplace => exact h.quiet hworkers hplace
  | collide outcome hplace htaken =>
    refine h.become h.annotated.shared ⟨trivial, (h.annotated.threads p).workers⟩ (.refl _) (fun _ _ _ _ hnone => hnone) ?_
    intro slot hslot
    cases hslot
  | reserve hunbound habsent => exact h.reserve _ habsent
  | create hplace habsent => exact h.create _ hplace habsent
  | link hplace hplace' hworkers => exact h.link _ hplace hplace' hworkers
  | update hplace hrow hworkers hplace' => exact h.update hplace hrow hworkers hplace'
  | record hplace => exact h.record _ hplace

theorem JobsOk.step (action : Proc × Move) : JobsOk (step σ action) :=
  h.effect (effect_move σ.shared (σ.threads action.1) action.2)

end Effects

/-- In every interleaving each job has an id, a slot and a record of its own, and no two processes have reserved one
slot. -/
theorem jobs_keyed (staleAfterSec : Proc → ℤ) (actions : List (Proc × Move)) :
    TablesOk (run step (initial staleAfterSec) actions).shared ∧
    Exclusive (fun p => reservedSlot p.place) (run step (initial staleAfterSec) actions) ∧
    ∀ p slot, reservedSlot ((run step (initial staleAfterSec) actions).threads p).place = some slot →
      ∀ job ∈ (run step (initial staleAfterSec) actions).shared.jobs, recordSlot job ≠ slot := by
  have hrun : JobsOk (run step (initial staleAfterSec) actions) := by
    refine run_invariant (I := JobsOk) ?_ (jobsOk_initial staleAfterSec) actions
    intro σ action h
    exact h.step action
  refine ⟨hrun.annotated.shared, hrun.exclusive, fun p slot hslot => ?_⟩
  exact ((hrun.annotated.threads p).reserved hslot).2

end OpenMinion.A2AJobInvariants
