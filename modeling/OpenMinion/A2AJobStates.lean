import OpenMinion.A2AJobInvariants

/-!
# Terminal states of jobs

Terminality is checked by a read, and the update that follows has no condition: a terminal job stays as it is where
nobody updates it between the two, and no `job_start` writes over a final record.
-/
namespace OpenMinion.A2AJobStates
open A2ACalls (Envelope A2AError idempotencyScope)
open A2AJobInvariants A2AJobs A2AStateStore InterleavedThreads IsoTimestamps KeyedTables TransitionRuns

/-- The state of a job, its result and its error. -/
structure SameEnd (job job' : Job) : Prop where
  state : job'.state = job.state
  resultInline : job'.resultInline = job.resultInline
  resultRef : job'.resultRef = job.resultRef
  error : job'.error = job.error

theorem SameEnd.refl (job : Job) : SameEnd job job := ⟨rfl, rfl, rfl, rfl⟩

theorem SameEnd.trans {a b c : Job} (h : SameEnd a b) (h' : SameEnd b c) : SameEnd a c :=
  ⟨h'.state.trans h.state, h'.resultInline.trans h.resultInline, h'.resultRef.trans h.resultRef, h'.error.trans h.error⟩

theorem SameEnd.isTerminal {a b : Job} (h : SameEnd a b) : b.isTerminal = a.isTerminal := by
  rw [JobRecord.isTerminal, JobRecord.isTerminal, h.state]

/-- Another process has declared the job stale, or canceled it, and this one does so again. -/
def Repeats (change : Change) (job : Job) : Prop :=
  (change = .stale ∨ change = .canceled) ∧ job.state = change.state ∧ job.error = change.error

instance (change : Change) (job : Job) : Decidable (Repeats change job) :=
  inferInstanceAs (Decidable ((change = .stale ∨ change = .canceled) ∧ job.state = change.state ∧ job.error = change.error))

theorem Repeats.sameEnd {change : Change} {job : Job} (h : Repeats change job) (now : DateTime) :
    SameEnd job ((change.patch now).write now job) := by
  obtain ⟨hchange, hstate, herror⟩ := h
  rcases hchange with rfl | rfl
  · exact ⟨hstate.symm, rfl, rfl, herror.symm⟩
  · exact ⟨hstate.symm, rfl, rfl, herror.symm⟩

theorem terminal_stateSuccess : terminalJobStates.contains stateSuccess = true := by decide

theorem terminal_stateFailed : terminalJobStates.contains stateFailed = true := by decide

theorem terminal_stateCanceled : terminalJobStates.contains stateCanceled = true := by decide

theorem status_receipt {change : Change} {receipt : Receipt} (h : change.receipt = some receipt) :
    receipt.status = change.state ∧ terminalJobStates.contains change.state = true := by
  cases change with
  | running => cases h
  | success resultInline resultRef =>
    obtain rfl := Option.some.inj h
    exact ⟨rfl, terminal_stateSuccess⟩
  | failed message =>
    obtain rfl := Option.some.inj h
    exact ⟨rfl, terminal_stateFailed⟩
  | canceled =>
    obtain rfl := Option.some.inj h
    exact ⟨rfl, terminal_stateCanceled⟩
  | stale =>
    obtain rfl := Option.some.inj h
    exact ⟨rfl, terminal_stateFailed⟩

theorem not_terminal_inProgress : terminalJobStates.contains statusInProgress = false := by decide

variable {Proc : Type}

/-- The next store step neither changes a job that is already terminal nor writes a new task id over a final record.
-/
def PlaceAllows (s : Tables) : Place → Prop
  | .updating job _ change _ => ∀ row ∈ getJob s.jobs job.taskId, row.isTerminal = false ∨ Repeats change row
  | .created e agent _ =>
    ∀ record ∈ getIdempotency s.idempotency (idempotencyScope e agent) e.idempotencyKey, record.status = statusInProgress
  | _ => True

instance (s : Tables) : ∀ place : Place, Decidable (PlaceAllows s place)
  | .updating job _ change _ =>
    inferInstanceAs (Decidable (∀ row ∈ getJob s.jobs job.taskId, row.isTerminal = false ∨ Repeats change row))
  | .created e agent _ =>
    inferInstanceAs (Decidable (∀ record ∈ getIdempotency s.idempotency (idempotencyScope e agent) e.idempotencyKey,
      record.status = statusInProgress))
  | .idle _ | .reserved _ _ | .recording _ _ _ _ | .rereading _ _ => isTrue trivial

def isAdvance : Move → Bool
  | .advance _ _ => true
  | _ => false

def StepOk (σ : Runtimes Proc) (action : Proc × Move) : Prop :=
  isAdvance action.2 = true → PlaceAllows σ.shared (σ.threads action.1).place

instance (σ : Runtimes Proc) (action : Proc × Move) : Decidable (StepOk σ action) :=
  inferInstanceAs (Decidable (isAdvance action.2 = true → PlaceAllows σ.shared (σ.threads action.1).place))

def Stays (s : Tables) (job : Job) : Prop := ∃ row, getJob s.jobs job.taskId = some row ∧ SameEnd job row

theorem stays_of_getJob {s : Tables} {taskId : String} {job : Job} (h : getJob s.jobs taskId = some job) : Stays s job := by
  refine ⟨job, ?_, .refl job⟩
  rw [taskId_getJob h]
  exact h

section Steps

variable {σ : Runtimes Proc} {p : Proc} {m : Move} {s' : Tables} {q : Process}

theorem StepOk.update {job : Job} {slot : String × String} {change : Change} {after : After} {now : DateTime}
    {freshId : FreshId} (hok : StepOk σ (p, .advance now freshId))
    (hplace : (σ.threads p).place = .updating job slot change after) {row : Job}
    (hrow : getJob σ.shared.jobs job.taskId = some row) : row.isTerminal = false ∨ Repeats change row := by
  have hallows := hok rfl
  rw [hplace] at hallows
  exact hallows row hrow

theorem StepOk.link {e : Envelope} {agent taskId : String} {now : DateTime} {freshId : FreshId}
    (hok : StepOk σ (p, .advance now freshId)) (hplace : (σ.threads p).place = .created e agent taskId)
    {record : IdempotencyRecord DateTime}
    (hrecord : getIdempotency σ.shared.idempotency (idempotencyScope e agent) e.idempotencyKey = some record) :
    record.status = statusInProgress := by
  have hallows := hok rfl
  rw [hplace] at hallows
  exact hallows record hrecord

theorem Stays.effect {job : Job} (h : Stays σ.shared job) (hterminal : job.isTerminal = true)
    (hok : StepOk σ (p, m)) (heffect : Effect σ.shared (σ.threads p) m s' q) : Stays s' job := by
  obtain ⟨row, hrow, hsame⟩ := h
  cases heffect with
  | quiet hworkers hplace => exact ⟨row, hrow, hsame⟩
  | collide outcome hplace htaken => exact ⟨row, hrow, hsame⟩
  | reserve hunbound habsent => exact ⟨row, hrow, hsame⟩
  | create hplace habsent =>
    refine ⟨row, ?_, hsame⟩
    have hfound : σ.shared.jobs.find? (fun j => j.taskId = job.taskId) = some row := hrow
    rw [afterCreate, getJob, lookup, List.find?_append, hfound]
    rfl
  | link hplace hplace' hworkers => exact ⟨row, hrow, hsame⟩
  | @update job' row' slot change after now freshId _ hplace hrow' hworkers hplace' =>
    have hget := getJob_updateJob σ.shared.jobs (isIdle_patch change now) job'.taskId now job.taskId
    rw [snd_updateJob (isIdle_patch change now), hrow, Option.map_some] at hget
    refine ⟨_, hget, ?_⟩
    split
    · next htask =>
      rw [← htask, hrow] at hrow'
      obtain rfl := Option.some.inj hrow'
      have hrepeats := (hok.update hplace (htask ▸ hrow)).resolve_left (by simp [hsame.isTerminal, hterminal])
      exact hsame.trans (hrepeats.sameEnd now)
    · exact hsame
  | record hplace => exact ⟨row, hrow, hsame⟩

end Steps

variable [DecidableEq Proc]

theorem Stays.run {σ : Runtimes Proc} {job : Job} (h : Stays σ.shared job) (hterminal : job.isTerminal = true)
    {actions : List (Proc × Move)} (hok : Guarded step StepOk σ actions) :
    Stays (run step σ actions).shared job := by
  refine hok.invariant (I := fun σ => Stays σ.shared job) ?_ h
  intro σ action h hok
  exact h.effect hterminal hok (effect_move σ.shared (σ.threads action.1) action.2)

/-- The record of a job has the status that corresponds to its state. -/
def Corresponds (s : Tables) (row : Job) : Prop :=
  ∃ record, getIdempotency s.idempotency (recordSlot row).1 (recordSlot row).2 = some record ∧ record.status = row.state

def Recording (σ : Runtimes Proc) (taskId : String) : Prop :=
  ∃ p job slot receipt after, (σ.threads p).place = .recording job slot receipt after ∧ job.taskId = taskId

structure StatesOk (σ : Runtimes Proc) : Prop where
  ended : ∀ p job slot receipt after, (σ.threads p).place = .recording job slot receipt after →
    ∃ row ∈ σ.shared.jobs, row.taskId = job.taskId ∧ row.state = receipt.status ∧ row.isTerminal = true
  settled : ∀ row ∈ σ.shared.jobs, row.isTerminal = true → Corresponds σ.shared row ∨ Recording σ row.taskId

omit [DecidableEq Proc] in
theorem statesOk_initial (staleAfterSec : Proc → ℤ) : StatesOk (initial staleAfterSec) where
  ended := by
    intro p job slot receipt after hplace
    cases hplace
  settled := by
    intro row hrow
    cases hrow

section Records

variable {σ : Runtimes Proc} {p : Proc} {m : Move} {s' : Tables} {q : Process}

theorem Recording.become {taskId : String} (h : Recording σ taskId)
    (hplace : isRecording (σ.threads p).place = false ∨ q.place = (σ.threads p).place) :
    Recording (σ.become p (s', q)) taskId := by
  obtain ⟨p', job, slot, receipt, after, hrecording, htask⟩ := h
  refine ⟨p', job, slot, receipt, after, ?_, htask⟩
  rw [threads_become]
  by_cases hp : p' = p
  · subst hp
    rw [if_pos rfl]
    rcases hplace with hnot | hsame
    · rw [hrecording] at hnot
      cases hnot
    · exact hsame.trans hrecording
  · rw [if_neg hp]
    exact hrecording

theorem StatesOk.become (h : StatesOk σ)
    (hjobs : ∀ row ∈ σ.shared.jobs, row.isTerminal = true → ∃ row' ∈ s'.jobs, row'.taskId = row.taskId ∧ row'.state = row.state)
    (hplace : isRecording (σ.threads p).place = false ∨ q.place = (σ.threads p).place)
    (hown : isRecording q.place = false ∨ q.place = (σ.threads p).place)
    (hsettled : ∀ row ∈ s'.jobs, row.isTerminal = true → Corresponds s' row ∨ Recording σ row.taskId) :
    StatesOk (σ.become p (s', q)) := by
  constructor
  · intro p' job slot receipt after hrecording
    have hold : ∃ p', (σ.threads p').place = .recording job slot receipt after := by
      rw [threads_become] at hrecording
      split at hrecording
      · rcases hown with hnot | hsame
        · rw [hrecording] at hnot
          cases hnot
        · exact ⟨p, hsame ▸ hrecording⟩
      · exact ⟨p', hrecording⟩
    obtain ⟨p', hold⟩ := hold
    obtain ⟨row, hrow, htask, hstate, hterminal⟩ := h.ended p' job slot receipt after hold
    obtain ⟨row', hrow', htask', hstate'⟩ := hjobs row hrow hterminal
    refine ⟨row', hrow', htask'.trans htask, hstate'.trans hstate, ?_⟩
    rw [JobRecord.isTerminal, hstate']
    exact hterminal
  · intro row hrow hterminal
    rcases hsettled row hrow hterminal with hrecord | hrecording
    · exact .inl hrecord
    · exact .inr (hrecording.become hplace)

theorem StatesOk.quiet (h : StatesOk σ)
    (hplace : isRecording (σ.threads p).place = false ∧ isRecording q.place = false ∨ q.place = (σ.threads p).place) :
    StatesOk (σ.become p (σ.shared, q)) :=
  h.become (fun row hrow _ => ⟨row, hrow, rfl, rfl⟩) (hplace.imp_left And.left) (hplace.imp_left And.right) h.settled

theorem StatesOk.reserve (h : StatesOk σ) (e : Envelope) (agent : String) (now : DateTime) (hunbound : Unbound (σ.threads p).place) :
    StatesOk (σ.become p (afterReserve σ.shared e agent now, (σ.threads p).become (.reserved e agent))) := by
  refine h.become (fun row hrow _ => ⟨row, hrow, rfl, rfl⟩) (.inl hunbound.recording) (.inl rfl) ?_
  intro row hrow hterminal
  refine (h.settled row hrow hterminal).imp_left ?_
  rintro ⟨record, hrecord, hstatus⟩
  refine ⟨record, ?_, hstatus⟩
  rw [afterReserve, getIdempotency_append, hrecord]
  rfl

theorem StatesOk.create (h : StatesOk σ) {e : Envelope} {agent : String} (taskId : String) (now : DateTime)
    (hplace : (σ.threads p).place = .reserved e agent) :
    StatesOk (σ.become p (afterCreate σ.shared e agent taskId now, (σ.threads p).become (.created e agent taskId))) := by
  refine h.become (fun row hrow _ => ⟨row, List.mem_append_left _ hrow, rfl, rfl⟩) (.inl (by rw [hplace]; rfl)) (.inl rfl) ?_
  intro row hrow hterminal
  rcases List.mem_append.mp hrow with hrow | hrow
  · exact h.settled row hrow hterminal
  · rw [List.mem_singleton.mp hrow] at hterminal
    have hpending : terminalJobStates.contains statePending = false := by decide
    exact absurd (hterminal.symm.trans hpending) (by decide)

theorem StatesOk.link (h : StatesOk σ) {e : Envelope} {agent taskId : String} {now : DateTime} {freshId : FreshId}
    (hok : StepOk σ (p, .advance now freshId)) (hplace : (σ.threads p).place = .created e agent taskId)
    (hplace' : ∃ outcome, q.place = .idle outcome) :
    StatesOk (σ.become p (afterRecord σ.shared (idempotencyScope e agent, e.idempotencyKey)
      { status := statusInProgress } taskId now, q)) := by
  obtain ⟨outcome, hidle⟩ := hplace'
  refine h.become (fun row hrow _ => ⟨row, hrow, rfl, rfl⟩) (.inl (by rw [hplace]; rfl)) (.inl (by rw [hidle]; rfl)) ?_
  intro row hrow hterminal
  rcases h.settled row hrow hterminal with ⟨record, hrecord, hstatus⟩ | hrecording
  · by_cases hslot : recordSlot row = (idempotencyScope e agent, e.idempotencyKey)
    · -- the record is still in progress, and the job is not
      rw [hslot] at hrecord
      have hprogress := hok.link hplace hrecord
      rw [JobRecord.isTerminal, ← hstatus, hprogress] at hterminal
      exact absurd (hterminal.symm.trans not_terminal_inProgress) (by decide)
    · refine .inl ⟨record, ?_, hstatus⟩
      rw [getIdempotency_afterRecord, if_neg hslot]
      exact hrecord
  · exact .inr hrecording

omit [DecidableEq Proc] in
theorem StatesOk.settled_afterUpdate (h : StatesOk σ) {taskId : String} {change : Change} {now : DateTime} {row : Job}
    (hrow : row ∈ (afterUpdate σ.shared taskId change now).jobs) (hterminal : row.isTerminal = true)
    (hne : row.taskId ≠ taskId) : Corresponds (afterUpdate σ.shared taskId change now) row ∨ Recording σ row.taskId := by
  obtain ⟨old, hold, rfl⟩ := (mem_afterUpdate σ.shared).mp hrow
  rw [taskId_ite] at hne
  rw [if_neg hne] at hterminal ⊢
  exact h.settled old hold hterminal

omit [DecidableEq Proc] in
theorem mem_afterUpdate_of_getJob {job row : Job} (hrow : getJob σ.shared.jobs job.taskId = some row) (change : Change)
    (now : DateTime) : (change.patch now).write now row ∈ (afterUpdate σ.shared job.taskId change now).jobs := by
  refine (mem_afterUpdate σ.shared).mpr ⟨row, (lookup_some hrow).1, ?_⟩
  rw [if_pos (taskId_getJob hrow)]

omit [DecidableEq Proc] in
theorem state_afterUpdate (htables : TablesOk σ.shared) {job row : Job} {slot : String × String} {change : Change}
    {after : After} {now : DateTime} {freshId : FreshId} (hok : StepOk σ (p, .advance now freshId))
    (hplace : (σ.threads p).place = .updating job slot change after) (hrow : row ∈ σ.shared.jobs)
    (hterminal : row.isTerminal = true) :
    ∃ row' ∈ (afterUpdate σ.shared job.taskId change now).jobs, row'.taskId = row.taskId ∧ row'.state = row.state := by
  refine ⟨_, (mem_afterUpdate σ.shared).mpr ⟨row, hrow, rfl⟩, taskId_ite _ _ _ _, ?_⟩
  split
  · next htask =>
    have hget : getJob σ.shared.jobs job.taskId = some row := htables.ids.lookup_eq_some_iff.mpr ⟨hrow, htask⟩
    have hrepeats := (hok.update hplace hget).resolve_left (by simp [hterminal])
    exact (hrepeats.sameEnd now).state
  · rfl

theorem StatesOk.updateEnding (h : StatesOk σ) (htables : TablesOk σ.shared) {job row : Job} {slot slot' : String × String}
    {change : Change} {after : After} {now : DateTime} {freshId : FreshId} {receipt : Receipt}
    (hok : StepOk σ (p, .advance now freshId)) (hplace : (σ.threads p).place = .updating job slot change after)
    (hrow : getJob σ.shared.jobs job.taskId = some row) (hreceipt : change.receipt = some receipt)
    (hplace' : q.place = .recording ((change.patch now).write now row) slot' receipt after) :
    StatesOk (σ.become p (afterUpdate σ.shared job.taskId change now, q)) := by
  obtain ⟨hstatus, hterminal⟩ := status_receipt hreceipt
  constructor
  · intro p' job' slot₁ receipt₁ after₁ hplace₁
    rw [threads_become] at hplace₁
    split at hplace₁
    · obtain ⟨rfl, -, rfl, -⟩ := Place.recording.inj (hplace'.symm.trans hplace₁)
      refine ⟨_, mem_afterUpdate_of_getJob hrow change now, rfl, ?_, ?_⟩
      · rw [state_write, hstatus]
      · rw [JobRecord.isTerminal, state_write]
        exact hterminal
    · obtain ⟨old, hold, htask, hstate, hended⟩ := h.ended p' job' slot₁ receipt₁ after₁ hplace₁
      obtain ⟨row', hrow', htask', hstate'⟩ := state_afterUpdate htables hok hplace hold hended
      refine ⟨row', hrow', htask'.trans htask, hstate'.trans hstate, ?_⟩
      rw [JobRecord.isTerminal, hstate']
      exact hended
  · intro row' hrow' hterminal'
    by_cases htask : row'.taskId = job.taskId
    · refine .inr ⟨p, (change.patch now).write now row, slot', receipt, after, ?_, ?_⟩
      · rw [threads_become, if_pos rfl]
        exact hplace'
      · exact (taskId_getJob hrow).trans htask.symm
    · refine (h.settled_afterUpdate hrow' hterminal' htask).imp_right fun hother => hother.become (.inl ?_)
      rw [hplace]
      rfl

theorem not_terminal_of_receipt_none {change : Change} (h : change.receipt = none) (now : DateTime) (row : Job) :
    ((change.patch now).write now row).isTerminal = false := by
  cases change with
  | running =>
    have hrunning : terminalJobStates.contains stateRunning = false := by decide
    rw [JobRecord.isTerminal, state_write]
    exact hrunning
  | success resultInline resultRef => cases h
  | failed message => cases h
  | canceled => cases h
  | stale => cases h

theorem StatesOk.updateRunning (h : StatesOk σ) (htables : TablesOk σ.shared) {job row : Job} {slot : String × String}
    {change : Change} {after : After} {now : DateTime} {freshId : FreshId} (hok : StepOk σ (p, .advance now freshId))
    (hplace : (σ.threads p).place = .updating job slot change after)
    (hrow : getJob σ.shared.jobs job.taskId = some row) (hreceipt : change.receipt = none)
    (hplace' : q.place = ((σ.threads p).resume ((change.patch now).write now row) after).place) :
    StatesOk (σ.become p (afterUpdate σ.shared job.taskId change now, q)) := by
  refine h.become (fun row hrow hterminal => state_afterUpdate htables hok hplace hrow hterminal) (.inl ?_) (.inl ?_) ?_
  · rw [hplace]
    rfl
  · rw [hplace']
    exact (unbound_resume _ _ _).recording
  · intro row' hrow' hterminal'
    by_cases htask : row'.taskId = job.taskId
    · have hsame : row' = (change.patch now).write now row := by
        refine (htables.afterUpdate job.taskId change now).ids.eq_of_key_eq hrow' (mem_afterUpdate_of_getJob hrow change now) ?_
        exact htask.trans (taskId_getJob hrow).symm
      rw [hsame, not_terminal_of_receipt_none hreceipt] at hterminal'
      cases hterminal'
    · exact h.settled_afterUpdate hrow' hterminal' htask

omit [DecidableEq Proc] in
theorem StatesOk.corresponds (h : StatesOk σ) (hjobs : JobsOk σ) {job : Job} {slot : String × String} {receipt : Receipt}
    {after : After} (now : DateTime) (hplace : (σ.threads p).place = .recording job slot receipt after) {row : Job}
    (hrow : row ∈ σ.shared.jobs) (hkey : row.taskId = job.taskId ∨ recordSlot row = slot) :
    Corresponds (afterRecord σ.shared slot receipt job.taskId now) row := by
  have htables := hjobs.annotated.shared
  have hplaceOk : PlaceOk σ.shared (.recording job slot receipt after) := hplace ▸ (hjobs.annotated.threads p).place
  obtain ⟨row₁, hrow₁, htask₁, hslot₁⟩ := hplaceOk.1
  obtain ⟨row₂, hrow₂, htask₂, hstate, -⟩ := h.ended p job slot receipt after hplace
  obtain rfl : row₁ = row₂ := htables.ids.eq_of_key_eq hrow₁ hrow₂ (htask₁.trans htask₂.symm)
  obtain rfl : row = row₁ := by
    rcases hkey with htask | hslot
    · exact htables.ids.eq_of_key_eq hrow hrow₁ (htask.trans htask₁.symm)
    · exact htables.slots.eq_of_key_eq hrow hrow₁ (hslot.trans hslot₁.symm)
  subst hslot₁
  refine ⟨_, (getIdempotency_afterRecord σ.shared _ receipt job.taskId now _).trans (if_pos rfl), ?_⟩
  rw [status_resultRow]
  exact hstate.symm

theorem StatesOk.record (h : StatesOk σ) (hjobs : JobsOk σ) {job : Job} {slot : String × String} {receipt : Receipt}
    {after : After} (now : DateTime) (hplace : (σ.threads p).place = .recording job slot receipt after) :
    StatesOk (σ.become p (afterRecord σ.shared slot receipt job.taskId now, (σ.threads p).resume job after)) := by
  constructor
  · intro p' job' slot' receipt' after' hplace'
    rw [threads_become] at hplace'
    split at hplace'
    · have hnot := (unbound_resume (σ.threads p) job after).recording
      rw [hplace'] at hnot
      cases hnot
    · exact h.ended p' job' slot' receipt' after' hplace'
  · intro row hrow hterminal
    rcases h.settled row hrow hterminal with ⟨record, hrecord, hstatus⟩ | ⟨p', job', slot', receipt', after', hplace', htask⟩
    · by_cases hslot : recordSlot row = slot
      · exact .inl (h.corresponds hjobs now hplace hrow (.inr hslot))
      · have hother := getIdempotency_afterRecord σ.shared slot receipt job.taskId now (recordSlot row)
        exact .inl ⟨record, (hother.trans (if_neg hslot)).trans hrecord, hstatus⟩
    · by_cases hp : p' = p
      · subst hp
        obtain ⟨rfl, -⟩ := Place.recording.inj (hplace.symm.trans hplace')
        exact .inl (h.corresponds hjobs now hplace hrow (.inl htask.symm))
      · refine .inr ⟨p', job', slot', receipt', after', ?_, htask⟩
        rw [threads_become, if_neg hp]
        exact hplace'

theorem StatesOk.effect (h : StatesOk σ) (hjobs : JobsOk σ) (hok : StepOk σ (p, m))
    (heffect : Effect σ.shared (σ.threads p) m s' q) : StatesOk (σ.become p (s', q)) := by
  cases heffect with
  | quiet hworkers hplace =>
    refine h.quiet ?_
    rcases hplace with hsame | ⟨hunbound, hunbound', -⟩
    · exact .inr hsame
    · exact .inl ⟨hunbound.recording, hunbound'.recording⟩
  | collide outcome hplace htaken =>
    refine h.quiet (.inl ⟨?_, rfl⟩)
    rw [hplace]
    rfl
  | reserve hunbound habsent => exact h.reserve _ _ _ hunbound
  | create hplace habsent => exact h.create _ _ hplace
  | link hplace hplace' hworkers => exact h.link hok hplace hplace'
  | update hplace hrow hworkers hplace' =>
    rcases hplace' with ⟨receipt, slot', hreceipt, -, hplace'⟩ | ⟨hreceipt, hplace'⟩
    · exact h.updateEnding hjobs.annotated.shared hok hplace hrow hreceipt hplace'
    · exact h.updateRunning hjobs.annotated.shared hok hplace hrow hreceipt hplace'
  | record hplace => exact h.record hjobs _ hplace

end Records

theorem statesOk_run (staleAfterSec : Proc → ℤ) {actions : List (Proc × Move)}
    (hok : Guarded step StepOk (initial staleAfterSec) actions) :
    StatesOk (run step (initial staleAfterSec) actions) := by
  have hinitial := And.intro (jobsOk_initial staleAfterSec) (statesOk_initial staleAfterSec)
  refine (hok.invariant (I := fun σ => JobsOk σ ∧ StatesOk σ) ?_ hinitial).2
  rintro σ action ⟨hjobs, hstates⟩ hok
  exact ⟨hjobs.step action, hstates.effect hjobs hok (effect_move σ.shared (σ.threads action.1) action.2)⟩

/-- In every run whose steps meet the condition, a job that has ended stays so, and when no operation is under way,
its record has its status. -/
theorem terminal_states_absorbing (staleAfterSec : Proc → ℤ) (before after : List (Proc × Move))
    (hok : Guarded step StepOk (initial staleAfterSec) (before ++ after)) :
    (∀ taskId job, getJob (run step (initial staleAfterSec) before).shared.jobs taskId = some job → job.isTerminal = true →
      ∃ job', getJob (run step (initial staleAfterSec) (before ++ after)).shared.jobs taskId = some job' ∧
        SameEnd job job') ∧
    ((∀ p, ∃ outcome, ((run step (initial staleAfterSec) before).threads p).place = .idle outcome) →
      ∀ job ∈ (run step (initial staleAfterSec) before).shared.jobs, job.isTerminal = true →
        Corresponds (run step (initial staleAfterSec) before).shared job) := by
  obtain ⟨hbefore, hafter⟩ := guarded_append.mp hok
  constructor
  · intro taskId job hjob hterminal
    rw [run_append, ← taskId_getJob hjob]
    exact (stays_of_getJob hjob).run hterminal hafter
  · intro hidle job hjob hterminal
    rcases (statesOk_run staleAfterSec hbefore).settled job hjob hterminal with hrecord | ⟨p, _, _, _, _, hplace, _⟩
    · exact hrecord
    · obtain ⟨outcome, hp⟩ := hidle p
      rw [hplace] at hp
      cases hp

def step₀ (p : Bool) (seconds : Fin 3600) : Bool × Move := (p, .advance (clock seconds) ⟨"t1", t1_ne_empty⟩)

/-- A job runs in one process up to the read of `_mark_job_success`. -/
def reportRun : List (Bool × Move) :=
  [(false, .jobStart reportRequest "writer" (clock 0)), step₀ false 0, step₀ false 0, (false, .markJobRunning "t1"),
    step₀ false 1, (false, .dispatch "t1"), (false, .handled "t1" (.ok [])), (false, .markJobSuccess "t1" (.ok none))]

def reportSuccess : List (Bool × Move) := [step₀ false 900, step₀ false 900]

def reportRecovery : List (Bool × Move) := [(true, .recoverStaleJobs (clock 800)), step₀ true 800, step₀ true 800]

/-- A job that is not declared stale. -/
theorem terminal_states_absorbing_report :
    (∀ taskId job, getJob (run step (initial fun _ : Bool => 300) (reportRun ++ reportSuccess)).shared.jobs taskId = some job →
      job.isTerminal = true →
      ∃ job', getJob (run step (initial fun _ : Bool => 300) (reportRun ++ reportSuccess ++ reportRecovery)).shared.jobs taskId =
        some job' ∧ SameEnd job job') ∧
    ((∀ p, ∃ outcome, ((run step (initial fun _ : Bool => 300) (reportRun ++ reportSuccess)).threads p).place = .idle outcome) →
      ∀ job ∈ (run step (initial fun _ : Bool => 300) (reportRun ++ reportSuccess)).shared.jobs, job.isTerminal = true →
        Corresponds (run step (initial fun _ : Bool => 300) (reportRun ++ reportSuccess)).shared job) :=
  terminal_states_absorbing (fun _ => 300) (reportRun ++ reportSuccess) reportRecovery (by decide +kernel)

/-- The job is failed by the recovery, and then a success. -/
theorem terminal_state_overwritten :
    ¬ ∀ (staleAfterSec : Bool → ℤ) (before after : List (Bool × Move)) taskId job,
      getJob (run step (initial staleAfterSec) before).shared.jobs taskId = some job → job.isTerminal = true →
      ∃ job', getJob (run step (initial staleAfterSec) (before ++ after)).shared.jobs taskId = some job' ∧
        SameEnd job job' := by
  intro h
  have hfailed : (getJob (run step (initial fun _ : Bool => 300) (reportRun ++ reportRecovery)).shared.jobs "t1").map
      JobRecord.state = some stateFailed := by decide +kernel
  have hsuccess : (getJob (run step (initial fun _ : Bool => 300) (reportRun ++ reportRecovery ++ reportSuccess)).shared.jobs
      "t1").map JobRecord.state = some stateSuccess := by decide +kernel
  obtain ⟨job, hjob, hstate⟩ := Option.map_eq_some_iff.mp hfailed
  have hterminal : job.isTerminal = true := by
    rw [JobRecord.isTerminal, hstate]
    decide
  obtain ⟨job', hjob', hsame⟩ := h (fun _ => 300) (reportRun ++ reportRecovery) reportSuccess "t1" job hjob hterminal
  rw [hjob', Option.map_some, hsame.state, hstate] at hsuccess
  exact absurd hsuccess (by decide)

end OpenMinion.A2AJobStates
