import OpenMinion.A2AJobInvariants

/-!
# Recovery of jobs after a crash

A new process runs `recover_stale_jobs` and then `job_start` with the key of a job that a stopped process was starting.
Recovery goes by the rows of jobs: a reservation without one is not mended.
-/
namespace OpenMinion.A2AJobRecovery
open A2ACalls (Envelope A2AError idempotencyScope)
open A2AJobInvariants A2AJobs A2AStateStore InterleavedThreads IsoTimestamps KeyedTables TransitionRuns

variable {Proc : Type}

def startSlot (e : Envelope) (agent : String) : String × String := (idempotencyScope e agent, e.idempotencyKey)

/-- The id that `new_uuid` returns for a new job is one that no job has. -/
def FreshStep (σ : Runtimes Proc) (action : Proc × Move) : Prop :=
  match action.2 with
  | .advance _ freshId => reservedSlot (σ.threads action.1).place ≠ none → getJob σ.shared.jobs freshId = none
  | _ => True

instance (σ : Runtimes Proc) (action : Proc × Move) : Decidable (FreshStep σ action) :=
  match action with
  | (p, .advance _ freshId) =>
    inferInstanceAs (Decidable (reservedSlot (σ.threads p).place ≠ none → getJob σ.shared.jobs freshId = none))
  | (_, .jobStart _ _ _) | (_, .jobStatus _ _) | (_, .jobCancel _ _) | (_, .recoverStaleJobs _)
  | (_, .markJobRunning _) | (_, .markJobSuccess _ _) | (_, .markJobFailed _) | (_, .forgetJob _) | (_, .dispatch _)
  | (_, .handled _ _) => isTrue trivial

/-- A record has a job, or a process that is about to create one; the task id of a record is
that of its job. -/
structure LinksOk (σ : Runtimes Proc) : Prop where
  owner : ∀ (slot : String × String) record, getIdempotency σ.shared.idempotency slot.1 slot.2 = some record →
    (∃ p, reservedSlot (σ.threads p).place = some slot) ∨ ∃ row ∈ σ.shared.jobs, recordSlot row = slot
  task : ∀ (slot : String × String) record taskId, getIdempotency σ.shared.idempotency slot.1 slot.2 = some record →
    record.taskId = some taskId → Has σ.shared taskId slot
  ids : ∀ row ∈ σ.shared.jobs, row.taskId ≠ ""

theorem linksOk_initial (staleAfterSec : Proc → ℤ) : LinksOk (initial staleAfterSec) where
  owner := by
    intro slot record hrecord
    cases hrecord
  task := by
    intro slot record taskId hrecord
    cases hrecord
  ids := by
    intro row hrow
    cases hrow

variable [DecidableEq Proc]

section Links

variable {σ : Runtimes Proc} {p : Proc} {q : Process}

theorem owner_become {s' : Tables} {slot : String × String}
    (h : (∃ p, reservedSlot (σ.threads p).place = some slot) ∨ ∃ row ∈ σ.shared.jobs, recordSlot row = slot)
    (hgrows : Grows σ.shared s')
    (hp : reservedSlot (σ.threads p).place = some slot → reservedSlot q.place = some slot ∨ ∃ row ∈ s'.jobs, recordSlot row = slot) :
    (∃ p', reservedSlot ((σ.become p (s', q)).threads p').place = some slot) ∨ ∃ row ∈ s'.jobs, recordSlot row = slot := by
  rcases h with ⟨p', hheld⟩ | ⟨row, hrow, hslot⟩
  · by_cases hp' : p' = p
    · subst hp'
      rcases hp hheld with hheld | hrow
      · refine .inl ⟨p', ?_⟩
        rw [threads_become, if_pos rfl]
        exact hheld
      · exact .inr hrow
    · refine .inl ⟨p', ?_⟩
      rw [threads_become, if_neg hp']
      exact hheld
  · obtain ⟨row', hrow', -, hslot'⟩ := hgrows.has _ _ ⟨row, hrow, rfl, hslot⟩
    exact .inr ⟨row', hrow', hslot'⟩

theorem LinksOk.record (h : LinksOk σ) {slot : String × String} {receipt : Receipt} {taskId : String} {now : DateTime}
    (hhas : Has σ.shared taskId slot) (hunbound : reservedSlot (σ.threads p).place = none) :
    LinksOk (σ.become p (afterRecord σ.shared slot receipt taskId now, q)) := by
  have hgrows := grows_afterRecord σ.shared slot receipt taskId now
  refine ⟨?_, ?_, h.ids⟩
  · intro slot' record hrecord
    refine owner_become ?_ hgrows fun hheld => by rw [hunbound] at hheld; cases hheld
    by_cases hslot : slot' = slot
    · obtain ⟨row, hrow, -, hrowSlot⟩ := hhas
      exact .inr ⟨row, hrow, hrowSlot.trans hslot.symm⟩
    · have hother := getIdempotency_afterRecord σ.shared slot receipt taskId now slot'
      exact h.owner slot' record ((hother.trans (if_neg hslot)).symm.trans hrecord)
  · intro slot' record taskId' hrecord htask
    have hwritten := getIdempotency_afterRecord σ.shared slot receipt taskId now slot'
    by_cases hslot : slot' = slot
    · subst hslot
      obtain rfl := Option.some.inj ((hwritten.trans (if_pos rfl)).symm.trans hrecord)
      rw [taskId_resultRow] at htask
      exact Option.some.inj htask ▸ hhas
    · exact h.task slot' record taskId' ((hwritten.trans (if_neg hslot)).symm.trans hrecord) htask

theorem LinksOk.quiet (h : LinksOk σ)
    (hplace : q.place = (σ.threads p).place ∨ reservedSlot (σ.threads p).place = none) :
    LinksOk (σ.become p (σ.shared, q)) := by
  refine ⟨fun slot record hrecord => ?_, h.task, h.ids⟩
  refine owner_become (h.owner slot record hrecord) (.refl _) fun hheld => .inl ?_
  rcases hplace with hsame | hnone
  · rw [hsame]
    exact hheld
  · rw [hnone] at hheld
    cases hheld

theorem LinksOk.reserve (h : LinksOk σ) {e : Envelope} {agent : String} {now : DateTime} (hunbound : Unbound (σ.threads p).place) :
    LinksOk (σ.become p (afterReserve σ.shared e agent now, (σ.threads p).become (.reserved e agent))) := by
  have hgrows := grows_afterReserve σ.shared e agent now
  have hcases : ∀ (slot : String × String) record,
      getIdempotency (afterReserve σ.shared e agent now).idempotency slot.1 slot.2 = some record →
      getIdempotency σ.shared.idempotency slot.1 slot.2 = some record ∨
        slot = startSlot e agent ∧ record = inProgressIdempotency e.idempotencyKey (idempotencyScope e agent) now := by
    intro slot record hrecord
    rw [afterReserve, getIdempotency_append, slot_inProgressIdempotency] at hrecord
    rcases Option.or_eq_some_iff.mp hrecord with hold | ⟨-, hnew⟩
    · exact .inl hold
    · split at hnew
      · next hslot => exact .inr ⟨hslot.symm, (Option.some.inj hnew).symm⟩
      · cases hnew
  refine ⟨?_, ?_, h.ids⟩
  · intro slot record hrecord
    rcases hcases slot record hrecord with hold | ⟨rfl, -⟩
    · refine owner_become (h.owner slot record hold) hgrows fun hheld => ?_
      rw [hunbound.reserved] at hheld
      cases hheld
    · refine .inl ⟨p, ?_⟩
      rw [threads_become, if_pos rfl]
      rfl
  · intro slot record taskId hrecord htask
    rcases hcases slot record hrecord with hold | ⟨-, rfl⟩
    · exact h.task slot record taskId hold htask
    · cases htask

theorem LinksOk.create (h : LinksOk σ) {e : Envelope} {agent : String} {now : DateTime} {freshId : FreshId}
    (hplace : (σ.threads p).place = .reserved e agent) :
    LinksOk (σ.become p (afterCreate σ.shared e agent freshId now, (σ.threads p).become (.created e agent freshId))) := by
  have hgrows := grows_afterCreate σ.shared e agent freshId now
  have hnew : newJob e agent freshId now ∈ (afterCreate σ.shared e agent freshId now).jobs :=
    List.mem_append_right _ (List.mem_singleton_self _)
  refine ⟨?_, ?_, ?_⟩
  · intro slot record hrecord
    refine owner_become (h.owner slot record hrecord) hgrows fun hheld => .inr ⟨_, hnew, ?_⟩
    rw [hplace] at hheld
    rw [recordSlot_newJob]
    exact Option.some.inj hheld
  · intro slot record taskId hrecord htask
    exact hgrows.has _ _ (h.task slot record taskId hrecord htask)
  · intro row hrow
    rcases List.mem_append.mp hrow with hrow | hrow
    · exact h.ids row hrow
    · rw [List.mem_singleton.mp hrow]
      exact freshId.2

theorem LinksOk.update (h : LinksOk σ) (taskId : String) (change : Change) (now : DateTime)
    (hunbound : reservedSlot (σ.threads p).place = none) :
    LinksOk (σ.become p (afterUpdate σ.shared taskId change now, q)) := by
  have hgrows := grows_afterUpdate σ.shared taskId change now
  refine ⟨?_, ?_, ?_⟩
  · intro slot record hrecord
    refine owner_become (h.owner slot record hrecord) hgrows fun hheld => ?_
    rw [hunbound] at hheld
    cases hheld
  · intro slot record taskId' hrecord htask
    exact hgrows.has _ _ (h.task slot record taskId' hrecord htask)
  · intro row hrow
    obtain ⟨old, hold, rfl⟩ := (mem_afterUpdate σ.shared).mp hrow
    rw [taskId_ite]
    exact h.ids old hold

theorem LinksOk.effect (h : LinksOk σ) (hjobs : JobsOk σ) {m : Move} (hfresh : FreshStep σ (p, m)) {s' : Tables}
    (heffect : Effect σ.shared (σ.threads p) m s' q) : LinksOk (σ.become p (s', q)) := by
  have hok := (hjobs.annotated.threads p).place
  cases heffect with
  | quiet hworkers hplace => exact h.quiet (hplace.imp_right fun hunbound => hunbound.1.reserved)
  | collide outcome hplace htaken =>
    refine absurd (hfresh ?_) htaken
    rw [hplace]
    exact Option.some_ne_none _
  | reserve hunbound habsent => exact h.reserve hunbound
  | create hplace habsent => exact h.create hplace
  | link hplace hplace' hworkers =>
    rw [hplace] at hok
    exact h.record hok (by rw [hplace]; rfl)
  | update hplace hrow hworkers hplace' => exact h.update _ _ _ (by rw [hplace]; rfl)
  | record hplace =>
    rw [hplace] at hok
    exact h.record hok.1 (by rw [hplace]; rfl)

end Links

theorem linksOk_run (staleAfterSec : Proc → ℤ) {actions : List (Proc × Move)}
    (hfresh : Guarded step FreshStep (initial staleAfterSec) actions) :
    JobsOk (run step (initial staleAfterSec) actions) ∧ LinksOk (run step (initial staleAfterSec) actions) := by
  have hinitial := And.intro (jobsOk_initial staleAfterSec) (linksOk_initial staleAfterSec)
  refine hfresh.invariant (I := fun σ => JobsOk σ ∧ LinksOk σ) ?_ hinitial
  rintro σ action ⟨hjobs, hlinks⟩ hfresh
  exact ⟨hjobs.step action, hlinks.effect hjobs hfresh (effect_move σ.shared (σ.threads action.1) action.2)⟩

/-- Where a process is in the loop of `recover_stale_jobs` over the rows that it has read. -/
inductive Looping (rows : List Job) (now : DateTime) : Place → Prop where
  | idle (outcome : Option Outcome) : Looping rows now (.idle outcome)
  | updating {job : Job} {rest : List Job} (recovered : List String) (hjob : job ∈ rows) (hrest : rest ⊆ rows) :
      Looping rows now (.updating job (recordSlot job) .stale (.rows rest recovered now))
  | recording {job updated : Job} {receipt : Receipt} {rest : List Job} (recovered : List String) (hjob : job ∈ rows)
      (htask : updated.taskId = job.taskId) (hreceipt : Change.stale.receipt = some receipt) (hrest : rest ⊆ rows) :
      Looping rows now (.recording updated (recordSlot job) receipt (.rows rest recovered now))

theorem looping_recoverRows (p : Process) (now : DateTime) {rows rest : List Job} (h : rest ⊆ rows) (recovered : List String) :
    Looping rows now (p.recoverRows now rest recovered) := by
  induction rest generalizing recovered with
  | nil => exact .idle _
  | cons job rest ih =>
    obtain ⟨hjob, hrest⟩ := List.cons_subset.mp h
    rw [Process.recoverRows]
    split
    · exact .updating _ hjob hrest
    · exact ih hrest recovered

/-- A step of the loop: a job is failed, or the record of the job is written. -/
inductive LoopStep (rows : List Job) (now : DateTime) (s : Tables) (p : Process) : Tables → Process → Prop where
  | stay {outcome : Option Outcome} (hplace : p.place = .idle outcome) : LoopStep rows now s p s p
  | update {job row : Job} {receipt : Receipt} {rest : List Job} {recovered : List String} {stamp : DateTime}
      (hplace : p.place = .updating job (recordSlot job) .stale (.rows rest recovered now)) (hjob : job ∈ rows)
      (hrest : rest ⊆ rows) (hrow : getJob s.jobs job.taskId = some row) (hreceipt : Change.stale.receipt = some receipt) :
      LoopStep rows now s p (afterUpdate s job.taskId .stale stamp)
        (p.become (.recording ((Change.stale.patch stamp).write stamp row) (recordSlot job) receipt (.rows rest recovered now)))
  | record {job updated : Job} {receipt : Receipt} {rest : List Job} {recovered : List String} {stamp : DateTime}
      (hplace : p.place = .recording updated (recordSlot job) receipt (.rows rest recovered now)) (hjob : job ∈ rows)
      (htask : updated.taskId = job.taskId) (hrest : rest ⊆ rows) :
      LoopStep rows now s p (afterRecord s (recordSlot job) receipt updated.taskId stamp)
        (p.become (p.recoverRows now rest recovered))

theorem getJob_ne_none {s : Tables} {taskId : String} {slot : String × String} (h : Has s taskId slot) :
    getJob s.jobs taskId ≠ none := by
  obtain ⟨row, hrow, htask, -⟩ := h
  intro hnone
  exact lookup_eq_none.mp hnone row hrow htask

theorem loopStep_advance {rows : List Job} {now : DateTime} {s : Tables} {p : Process} (h : Looping rows now p.place)
    (hok : PlaceOk s p.place) (stamp : DateTime) (freshId : FreshId) :
    LoopStep rows now s p (advance s p stamp freshId).1 (advance s p stamp freshId).2 := by
  generalize hplace : p.place = place at h hok
  cases h with
  | idle outcome =>
    rw [advance, hplace]
    exact .stay hplace
  | @updating job rest recovered hjob hrest =>
    rw [advance, hplace]
    cases hrow : getJob s.jobs job.taskId with
    | none => exact absurd hrow (getJob_ne_none hok.1)
    | some row =>
      simp only [updateJob_of_some (isIdle_patch .stale stamp) hrow]
      exact .update hplace hjob hrest hrow rfl
  | @recording job updated receipt rest recovered hjob htask hreceipt hrest =>
    rw [advance, hplace]
    simp only [snd_setIdempotencyResult]
    exact .record hplace hjob htask hrest

/-- The record of a slot and its job are as before. -/
structure Untouched (slot : String × String) (s s' : Tables) : Prop where
  record : getIdempotency s'.idempotency slot.1 slot.2 = getIdempotency s.idempotency slot.1 slot.2
  jobs : ∀ row, recordSlot row = slot → (row ∈ s'.jobs ↔ row ∈ s.jobs)

/-- The job of a slot is terminal, and its record has a task id. -/
def Mended (slot : String × String) (s : Tables) : Prop :=
  ∃ row ∈ s.jobs, recordSlot row = slot ∧ row.isTerminal = true ∧
    ∃ record, getIdempotency s.idempotency slot.1 slot.2 = some record ∧ record.taskId ≠ none

/-- The job is still to come in the loop, or its record is. -/
inductive Pending (target : Job) (now : DateTime) (s : Tables) : Place → Prop where
  | updating {job : Job} {slot : String × String} {rest : List Job} {recovered : List String} (htarget : target ∈ s.jobs)
      (hjob : job = target ∨ target ∈ rest) : Pending target now s (.updating job slot .stale (.rows rest recovered now))
  | other {updated : Job} {slot : String × String} {receipt : Receipt} {rest : List Job} {recovered : List String}
      (htarget : target ∈ s.jobs) (hrest : target ∈ rest) :
      Pending target now s (.recording updated slot receipt (.rows rest recovered now))
  | recording {updated row : Job} {receipt : Receipt} {rest : List Job} {recovered : List String} (hrow : row ∈ s.jobs)
      (hslot : recordSlot row = recordSlot target) (hterminal : row.isTerminal = true) :
      Pending target now s (.recording updated (recordSlot target) receipt (.rows rest recovered now))

theorem isTerminal_stale (stamp : DateTime) (row : Job) : ((Change.stale.patch stamp).write stamp row).isTerminal = true := by
  have hfailed : terminalJobStates.contains stateFailed = true := by decide
  rw [JobRecord.isTerminal, state_write]
  exact hfailed

section LoopSteps

variable {rows : List Job} {now : DateTime} {s s' : Tables} {p p' : Process} (h : LoopStep rows now s p s' p')
include h

theorem LoopStep.looping (hlooping : Looping rows now p.place) : Looping rows now p'.place := by
  cases h with
  | stay hplace => exact hlooping
  | update hplace hjob hrest hrow hreceipt =>
    exact .recording _ hjob ((taskId_write _ _ _).trans (taskId_getJob hrow)) hreceipt hrest
  | record hplace hjob htask hrest => exact looping_recoverRows p now hrest _

theorem LoopStep.same : p'.workers = p.workers ∧ p'.staleAfterSec = p.staleAfterSec := by
  cases h with
  | stay hplace => exact ⟨rfl, rfl⟩
  | update hplace hjob hrest hrow hreceipt => exact ⟨rfl, rfl⟩
  | record hplace hjob htask hrest => exact ⟨rfl, rfl⟩

theorem LoopStep.untouched (htables : TablesOk s) (hok : PlaceOk s p.place) {slot : String × String}
    (hslot : ∀ job ∈ rows, recordSlot job ≠ slot) {s₀ : Tables} (huntouched : Untouched slot s₀ s) : Untouched slot s₀ s' := by
  cases h with
  | stay hplace => exact huntouched
  | @update job row receipt rest recovered stamp hplace hjob hrest hrow hreceipt =>
    rw [hplace] at hok
    refine ⟨huntouched.record, fun row' hrow' => ?_⟩
    rw [← huntouched.jobs row' hrow', mem_afterUpdate]
    -- the rows of the slot are of another job
    have hother : ∀ old ∈ s.jobs, recordSlot old = slot → old.taskId ≠ job.taskId := by
      intro old hold holdSlot htask
      refine hslot job hjob ?_
      rw [htables.slot_unique hok.1 ⟨old, hold, htask, rfl⟩]
      exact holdSlot
    constructor
    · rintro ⟨old, hold, rfl⟩
      rw [recordSlot_ite] at hrow'
      rw [if_neg (hother old hold hrow')]
      exact hold
    · intro hmem
      refine ⟨row', hmem, ?_⟩
      rw [if_neg (hother row' hmem hrow')]
  | @record job updated receipt rest recovered stamp hplace hjob htask hrest =>
    refine ⟨?_, huntouched.jobs⟩
    rw [getIdempotency_afterRecord, if_neg (Ne.symm (hslot job hjob))]
    exact huntouched.record

theorem LoopStep.mended {slot : String × String} (hmended : Mended slot s) : Mended slot s' := by
  obtain ⟨row, hrow, hslot, hterminal, record, hrecord, htask⟩ := hmended
  cases h with
  | stay hplace => exact ⟨row, hrow, hslot, hterminal, record, hrecord, htask⟩
  | @update job row' receipt rest recovered stamp hplace hjob hrest hrow' hreceipt =>
    refine ⟨_, (mem_afterUpdate s).mpr ⟨row, hrow, rfl⟩, ?_, ?_, record, hrecord, htask⟩
    · rw [recordSlot_ite]
      exact hslot
    · split
      · exact isTerminal_stale stamp row
      · exact hterminal
  | @record job updated receipt rest recovered stamp hplace hjob htask' hrest =>
    refine ⟨row, hrow, hslot, hterminal, ?_⟩
    rw [getIdempotency_afterRecord]
    split
    · refine ⟨_, rfl, ?_⟩
      rw [taskId_resultRow]
      exact Option.some_ne_none _
    · exact ⟨record, hrecord, htask⟩

end LoopSteps

theorem pending_recoverRows {target : Job} {now : DateTime} {s : Tables} {p : Process} (htarget : target ∈ s.jobs)
    (hrecovers : p.recovers target now = true) {rest : List Job} (hrest : target ∈ rest) (recovered : List String) :
    Pending target now s (p.recoverRows now rest recovered) := by
  induction rest generalizing recovered with
  | nil => cases hrest
  | cons job rest ih =>
    rw [Process.recoverRows]
    rcases List.mem_cons.mp hrest with rfl | hrest
    · rw [if_pos hrecovers]
      exact .updating htarget (.inl rfl)
    · split
      · exact .updating htarget (.inr hrest)
      · exact ih hrest recovered

theorem LoopStep.pending {rows : List Job} {now : DateTime} {s s' : Tables} {p p' : Process}
    (h : LoopStep rows now s p s' p') (htables : TablesOk s)
    (hids : ∀ a ∈ rows, ∀ b ∈ rows, a.taskId = b.taskId → a = b) {target : Job} (hmem : target ∈ rows)
    (hrecovers : p.recovers target now = true) (hpending : Pending target now s p.place) :
    Mended (recordSlot target) s' ∨ Pending target now s' p'.place := by
  cases h with
  | stay hplace =>
    rw [hplace] at hpending
    cases hpending
  | @update job row receipt rest recovered stamp hplace hjob hrest hrow hreceipt =>
    rw [hplace] at hpending
    cases hpending with
    | updating htarget hturn =>
      refine .inr ?_
      by_cases heq : job = target
      · subst heq
        refine .recording ((mem_afterUpdate s).mpr ⟨row, (lookup_some hrow).1, (if_pos (taskId_getJob hrow)).symm⟩) ?_
          (isTerminal_stale stamp row)
        rw [recordSlot_write, htables.ids.eq_of_key_eq (lookup_some hrow).1 htarget (taskId_getJob hrow)]
      · refine .other ((mem_afterUpdate s).mpr ⟨target, htarget, (if_neg ?_).symm⟩) (hturn.resolve_left heq)
        exact fun htask => heq (hids target hmem job hjob htask).symm
  | @record job updated receipt rest recovered stamp hplace hjob htask hrest =>
    rw [hplace] at hpending
    generalize hslot : recordSlot job = slot at hpending
    cases hpending with
    | other htarget hturn =>
      have htarget' : target ∈ (afterRecord s slot receipt updated.taskId stamp).jobs := htarget
      exact .inr (pending_recoverRows htarget' hrecovers hturn recovered)
    | recording hrow hrowSlot hterminal =>
      refine .inl ⟨_, hrow, hrowSlot, hterminal, ?_⟩
      rw [getIdempotency_afterRecord, if_pos rfl]
      refine ⟨_, rfl, ?_⟩
      rw [taskId_resultRow]
      exact Option.some_ne_none _

def ownSteps (q : Proc) (stamps : List (DateTime × FreshId)) : List (Proc × Move) :=
  stamps.map fun stamp => (q, .advance stamp.1 stamp.2)

/-- The loop of a process, from the state in which it began. -/
structure InLoop (q : Proc) (rows : List Job) (now : DateTime) (σ₀ σ : Runtimes Proc) : Prop where
  jobs : JobsOk σ
  links : LinksOk σ
  looping : Looping rows now (σ.threads q).place
  workers : (σ.threads q).workers = (σ₀.threads q).workers
  staleAfterSec : (σ.threads q).staleAfterSec = (σ₀.threads q).staleAfterSec
  others : ∀ p, p ≠ q → σ.threads p = σ₀.threads p

section Recovery

variable {q : Proc} {rows : List Job} {now : DateTime} {σ₀ σ : Runtimes Proc}

theorem Looping.reservedSlot {place : Place} (h : Looping rows now place) : reservedSlot place = none := by
  cases h with
  | idle outcome => rfl
  | updating recovered hjob hrest => rfl
  | recording recovered hjob htask hreceipt hrest => rfl

theorem InLoop.loopStep (h : InLoop q rows now σ₀ σ) (stamp : DateTime) (freshId : FreshId) :
    LoopStep rows now σ.shared (σ.threads q) (step σ (q, .advance stamp freshId)).shared
      ((step σ (q, .advance stamp freshId)).threads q) := by
  have hstep := loopStep_advance h.looping (h.jobs.annotated.threads q).place stamp freshId
  simpa [step, move] using hstep

theorem InLoop.step (h : InLoop q rows now σ₀ σ) (stamp : DateTime) (freshId : FreshId) :
    InLoop q rows now σ₀ (A2AJobs.step σ (q, .advance stamp freshId)) := by
  have hstep := h.loopStep stamp freshId
  have hfresh : FreshStep σ (q, .advance stamp freshId) := fun hheld => absurd h.looping.reservedSlot hheld
  refine ⟨h.jobs.step _, ?_, hstep.looping h.looping, hstep.same.1.trans h.workers, hstep.same.2.trans h.staleAfterSec, ?_⟩
  · exact h.links.effect h.jobs hfresh (effect_move σ.shared (σ.threads q) _)
  · intro p hp
    rw [A2AJobs.step, threads_become, if_neg hp]
    exact h.others p hp

theorem InLoop.run {I : Runtimes Proc → Prop} (h : InLoop q rows now σ₀ σ) (hI : I σ)
    (hstep : ∀ σ stamp freshId, InLoop q rows now σ₀ σ → I σ → I (A2AJobs.step σ (q, .advance stamp freshId)))
    (stamps : List (DateTime × FreshId)) :
    InLoop q rows now σ₀ (TransitionRuns.run A2AJobs.step σ (ownSteps q stamps)) ∧
      I (TransitionRuns.run A2AJobs.step σ (ownSteps q stamps)) := by
  induction stamps generalizing σ with
  | nil => exact ⟨h, hI⟩
  | cons stamp stamps ih => exact ih (h.step stamp.1 stamp.2) (hstep σ stamp.1 stamp.2 h hI)

theorem InLoop.run_untouched (h : InLoop q rows now σ₀ σ) {slot : String × String}
    (hslot : ∀ job ∈ rows, recordSlot job ≠ slot) (stamps : List (DateTime × FreshId)) :
    Untouched slot σ.shared (TransitionRuns.run A2AJobs.step σ (ownSteps q stamps)).shared := by
  refine (h.run (I := fun σ' => Untouched slot σ.shared σ'.shared) ⟨rfl, fun _ _ => Iff.rfl⟩ ?_ stamps).2
  intro σ' stamp freshId h' huntouched
  exact (h'.loopStep stamp freshId).untouched h'.jobs.annotated.shared (h'.jobs.annotated.threads q).place hslot huntouched

theorem InLoop.run_mended (h : InLoop q rows now σ₀ σ) {slot : String × String} (hmended : Mended slot σ.shared)
    (stamps : List (DateTime × FreshId)) : Mended slot (TransitionRuns.run A2AJobs.step σ (ownSteps q stamps)).shared := by
  refine (h.run (I := fun σ' => Mended slot σ'.shared) hmended ?_ stamps).2
  intro σ' stamp freshId h' hmended
  exact (h'.loopStep stamp freshId).mended hmended

theorem InLoop.run_pending (h : InLoop q rows now σ₀ σ) (hids : ∀ a ∈ rows, ∀ b ∈ rows, a.taskId = b.taskId → a = b)
    {target : Job} (hmem : target ∈ rows) (hrecovers : (σ₀.threads q).recovers target now = true)
    (hpending : Pending target now σ.shared (σ.threads q).place) (stamps : List (DateTime × FreshId)) {outcome : Option Outcome}
    (hdone : ((TransitionRuns.run A2AJobs.step σ (ownSteps q stamps)).threads q).place = .idle outcome) :
    Mended (recordSlot target) (TransitionRuns.run A2AJobs.step σ (ownSteps q stamps)).shared := by
  have hrun := (h.run (I := fun σ' => Mended (recordSlot target) σ'.shared ∨
    Pending target now σ'.shared (σ'.threads q).place) (.inr hpending) ?_ stamps).2
  · refine hrun.resolve_right fun hpending => ?_
    rw [hdone] at hpending
    cases hpending
  · intro σ' stamp freshId h' hI
    have hsame : (σ'.threads q).recovers target now = true := by
      rw [Process.recovers, Process.hasFuture, h'.workers, h'.staleAfterSec]
      exact hrecovers
    rcases hI with hmended | hpending
    · exact .inl ((h'.loopStep stamp freshId).mended hmended)
    · exact (h'.loopStep stamp freshId).pending h'.jobs.annotated.shared hids hmem hsame hpending

end Recovery

/-- `job_start` returns the id of a terminal job, or has made a reservation to start one. -/
def StartsOrReturnsTerminal (σ : Runtimes Proc) (q : Proc) (e : Envelope) (agent : String) (now : DateTime) : Prop :=
  match ((step σ (q, .jobStart e agent now)).threads q).place with
  | .reserved _ _ => True
  | .idle (some (.started taskId)) => ∃ job, getJob σ.shared.jobs taskId = some job ∧ job.isTerminal = true
  | _ => False

/-- No process stands between its reservation and its job, a terminal job has its id in the record, and an active one
is among the jobs that a recovery reads. -/
structure Recoverable (σ : Runtimes Proc) (slot : String × String) : Prop where
  reserved : ∀ p, reservedSlot (σ.threads p).place ≠ some slot
  linked : ∀ row ∈ σ.shared.jobs, recordSlot row = slot → row.isTerminal = true →
    ∃ record, getIdempotency σ.shared.idempotency slot.1 slot.2 = some record ∧ record.taskId ≠ none
  listed : ∀ row ∈ σ.shared.jobs, recordSlot row = slot → row.isTerminal = false → row ∈ listJobs σ.shared.jobs activeJobs

section Start

variable {σ : Runtimes Proc} {q : Proc} {e : Envelope} {agent : String} {now : DateTime} {outcome : Option Outcome}
  (hidle : (σ.threads q).place = .idle outcome)
include hidle

theorem place_jobStart :
    ((step σ (q, .jobStart e agent now)).threads q).place = (jobStart σ.shared (σ.threads q) e agent now).2.place := by
  rw [step, threads_become, if_pos rfl, move.eq_def]
  simp only [hidle]

theorem startsOrReturnsTerminal_of_none (htype : e.type = "job.start")
    (hrecord : getIdempotency σ.shared.idempotency (idempotencyScope e agent) e.idempotencyKey = none) :
    StartsOrReturnsTerminal σ q e agent now := by
  rw [StartsOrReturnsTerminal, place_jobStart hidle]
  simp [jobStart, htype, reserveIdempotency_of_none hrecord, Process.become]

theorem startsOrReturnsTerminal_of_some (htype : e.type = "job.start") {record : IdempotencyRecord DateTime}
    (hrecord : getIdempotency σ.shared.idempotency (idempotencyScope e agent) e.idempotencyKey = some record) :
    StartsOrReturnsTerminal σ q e agent now ↔
      ∃ taskId, record.taskId = some taskId ∧ taskId ≠ "" ∧
        ∃ job, getJob σ.shared.jobs taskId = some job ∧ job.isTerminal = true := by
  rw [StartsOrReturnsTerminal, place_jobStart hidle]
  cases htask : record.taskId with
  | none =>
    by_cases hstatus : record.status = statusSuccess
    · simp [jobStart, htype, reserveIdempotency_of_some hrecord, Process.become, htask, hstatus]
    · simp [jobStart, htype, reserveIdempotency_of_some hrecord, Process.become, htask, hstatus]
  | some taskId =>
    by_cases hempty : taskId = ""
    · by_cases hstatus : record.status = statusSuccess
      · simp [jobStart, htype, reserveIdempotency_of_some hrecord, Process.become, htask, hempty, hstatus]
      · simp [jobStart, htype, reserveIdempotency_of_some hrecord, Process.become, htask, hempty, hstatus]
    · simp [jobStart, htype, reserveIdempotency_of_some hrecord, Process.become, htask, hempty]

end Start

theorem not_terminal_of_listed {jobs : JobTable DateTime} {job : Job} (h : job ∈ listJobs jobs activeJobs) :
    job.isTerminal = false := by
  have hselects := (mem_listJobs h).2
  have hgiven : statesGiven activeJobStates = activeJobStates := by decide +kernel
  simp only [JobFilter.selects, activeJobs, applies, hgiven, Bool.true_and, Bool.and_true] at hselects
  simp [activeJobStates, statePending, stateRunning] at hselects
  rcases hselects with hstate | hstate
  · rw [JobRecord.isTerminal, hstate]
    decide
  · rw [JobRecord.isTerminal, hstate]
    decide

theorem startsOrReturnsTerminal_of_mended {σ : Runtimes Proc} {q : Proc} {e : Envelope} {agent : String} {now : DateTime}
    {outcome : Option Outcome} (hidle : (σ.threads q).place = .idle outcome) (htype : e.type = "job.start")
    (hjobs : JobsOk σ) (hlinks : LinksOk σ) (hmended : Mended (startSlot e agent) σ.shared) :
    StartsOrReturnsTerminal σ q e agent now := by
  obtain ⟨row, hrow, hslot, hterminal, record, hrecord, htask⟩ := hmended
  obtain ⟨taskId, htaskId⟩ := Option.ne_none_iff_exists'.mp htask
  obtain ⟨row', hrow', htask', hslot'⟩ := hlinks.task _ record taskId hrecord htaskId
  obtain rfl := hjobs.annotated.shared.slots.eq_of_key_eq hrow hrow' (hslot.trans hslot'.symm)
  subst htask'
  refine (startsOrReturnsTerminal_of_some hidle htype hrecord).mpr ⟨_, htaskId, hlinks.ids row hrow, row, ?_, hterminal⟩
  exact hjobs.annotated.shared.ids.lookup_eq_some_iff.mpr ⟨hrow, rfl⟩

theorem Untouched.of_starts {σ₀ σ : Runtimes Proc} {q : Proc} {e : Envelope} {agent : String} {now : DateTime}
    {outcome : Option Outcome} (h : Untouched (startSlot e agent) σ₀.shared σ.shared)
    (hidle : (σ.threads q).place = .idle outcome) (htype : e.type = "job.start") (hlinks : LinksOk σ)
    (hstarts : StartsOrReturnsTerminal σ q e agent now) {record : IdempotencyRecord DateTime}
    (hrecord : getIdempotency σ₀.shared.idempotency (idempotencyScope e agent) e.idempotencyKey = some record) :
    ∃ job ∈ σ₀.shared.jobs, recordSlot job = startSlot e agent ∧ record.taskId = some job.taskId ∧
      ∃ row, getJob σ.shared.jobs job.taskId = some row ∧ row.isTerminal = true := by
  have hsame : getIdempotency σ.shared.idempotency (idempotencyScope e agent) e.idempotencyKey = some record :=
    h.record.trans hrecord
  obtain ⟨taskId, htask, -, hended⟩ := (startsOrReturnsTerminal_of_some hidle htype hsame).mp hstarts
  obtain ⟨job, hjob, rfl, hslot⟩ := hlinks.task (startSlot e agent) record taskId hsame htask
  exact ⟨job, (h.jobs job hslot).mp hjob, hslot, htask, hended⟩

section Crash

variable {σ : Runtimes Proc} {q : Proc} {now : DateTime}

theorem inLoop_recover (now : DateTime) (hjobs : JobsOk σ) (hlinks : LinksOk σ) {outcome : Option Outcome}
    (hidle : (σ.threads q).place = .idle outcome) :
    (step σ (q, .recoverStaleJobs now)).shared = σ.shared ∧
    ((step σ (q, .recoverStaleJobs now)).threads q).place =
      (σ.threads q).recoverRows now (listJobs σ.shared.jobs activeJobs) [] ∧
    InLoop q (listJobs σ.shared.jobs activeJobs) now σ (step σ (q, .recoverStaleJobs now)) := by
  have hmove : move σ.shared (σ.threads q) (.recoverStaleJobs now) =
      (σ.shared, (σ.threads q).become ((σ.threads q).recoverRows now (listJobs σ.shared.jobs activeJobs) [])) := by
    rw [move.eq_def]
    simp only [hidle]
  have hstep : step σ (q, .recoverStaleJobs now) = σ.become q (σ.shared,
      (σ.threads q).become ((σ.threads q).recoverRows now (listJobs σ.shared.jobs activeJobs) [])) :=
    congrArg (σ.become q) hmove
  have hfresh : FreshStep σ (q, .recoverStaleJobs now) := trivial
  refine ⟨by rw [hstep]; rfl, by rw [hstep]; simp [Process.become], ?_⟩
  refine ⟨hjobs.step _, hlinks.effect hjobs hfresh (effect_move σ.shared (σ.threads q) _), ?_, ?_, ?_, ?_⟩
  · rw [hstep, threads_become, if_pos rfl]
    exact looping_recoverRows _ now (List.Subset.refl _) []
  · rw [hstep, threads_become, if_pos rfl]
    rfl
  · rw [hstep, threads_become, if_pos rfl]
    rfl
  · intro p hp
    rw [hstep, threads_become, if_neg hp]

def recovery (σ : Runtimes Proc) (q : Proc) (now : DateTime) (stamps : List (DateTime × FreshId)) : Runtimes Proc :=
  run step (step σ (q, .recoverStaleJobs now)) (ownSteps q stamps)

variable {stamps : List (DateTime × FreshId)} {e : Envelope} {agent : String} {later : DateTime} {before done : Option Outcome}

theorem inLoop_recovery (now : DateTime) (stamps : List (DateTime × FreshId)) (hjobs : JobsOk σ) (hlinks : LinksOk σ) (hidle : (σ.threads q).place = .idle before) :
    InLoop q (listJobs σ.shared.jobs activeJobs) now σ (recovery σ q now stamps) := by
  obtain ⟨-, -, hloop⟩ := inLoop_recover now hjobs hlinks hidle
  exact (hloop.run (I := fun _ => True) trivial (fun _ _ _ _ _ => trivial) stamps).1

theorem untouched_recovery (now : DateTime) (stamps : List (DateTime × FreshId)) (hjobs : JobsOk σ) (hlinks : LinksOk σ)
    (hidle : (σ.threads q).place = .idle before) (slot : String × String)
    (h : ∀ row ∈ σ.shared.jobs, recordSlot row = slot → row ∉ listJobs σ.shared.jobs activeJobs) :
    Untouched slot σ.shared (recovery σ q now stamps).shared := by
  obtain ⟨hshared, -, hloop⟩ := inLoop_recover now hjobs hlinks hidle
  have huntouched := hloop.run_untouched (fun job hjob hslot => h job (mem_listJobs hjob).1 hslot hjob) stamps
  rw [hshared] at huntouched
  exact huntouched

theorem starts_of_recoverable (hjobs : JobsOk σ) (hlinks : LinksOk σ) (hidle : (σ.threads q).place = .idle before)
    (hworkers : (σ.threads q).workers = []) (htype : e.type = "job.start")
    (hstale : ∀ row ∈ σ.shared.jobs, recordSlot row = startSlot e agent → row.isTerminal = false →
      isStale row.heartbeatAt now (σ.threads q).staleAfterSec = true)
    (hdone : ((recovery σ q now stamps).threads q).place = .idle done)
    (hrecoverable : Recoverable σ (startSlot e agent)) :
    StartsOrReturnsTerminal (recovery σ q now stamps) q e agent later := by
  have htables := hjobs.annotated.shared
  have hend := inLoop_recovery now stamps hjobs hlinks hidle
  obtain ⟨hshared, hplace, hloop⟩ := inLoop_recover now hjobs hlinks hidle
  cases hrecord : getIdempotency σ.shared.idempotency (idempotencyScope e agent) e.idempotencyKey with
  | none =>
    -- no record, so no job of the slot, and the recovery writes none
    have huntouched : Untouched (startSlot e agent) σ.shared (recovery σ q now stamps).shared := by
      refine untouched_recovery now stamps hjobs hlinks hidle _ fun row hrow hslot => ?_
      have hsome := htables.record row hrow
      rw [hslot] at hsome
      exact absurd hrecord hsome
    exact startsOrReturnsTerminal_of_none hdone htype (huntouched.record.trans hrecord)
  | some record =>
    refine startsOrReturnsTerminal_of_mended hdone htype hend.jobs hend.links ?_
    rcases hlinks.owner (startSlot e agent) record hrecord with ⟨p, hheld⟩ | ⟨row, hrow, hslot⟩
    · exact absurd hheld (hrecoverable.reserved p)
    · cases hterminal : row.isTerminal with
      | true =>
        obtain ⟨record', hrecord', htask⟩ := hrecoverable.linked row hrow hslot hterminal
        refine hloop.run_mended ?_ stamps
        rw [hshared]
        exact ⟨row, hrow, hslot, hterminal, record', hrecord', htask⟩
      | false =>
        have hlisted := hrecoverable.listed row hrow hslot hterminal
        have hrecovers : (σ.threads q).recovers row now = true := by
          simp [Process.recovers, Process.hasFuture, hworkers, hterminal, hstale row hrow hslot hterminal]
        have hpending : Pending row now (step σ (q, .recoverStaleJobs now)).shared
            ((step σ (q, .recoverStaleJobs now)).threads q).place := by
          rw [hshared, hplace]
          exact pending_recoverRows hrow hrecovers hlisted []
        have hids : ∀ a ∈ listJobs σ.shared.jobs activeJobs, ∀ b ∈ listJobs σ.shared.jobs activeJobs,
            a.taskId = b.taskId → a = b :=
          fun a ha b hb => htables.ids.eq_of_key_eq (mem_listJobs ha).1 (mem_listJobs hb).1
        rw [← hslot]
        exact hloop.run_pending hids hlisted hrecovers hpending stamps hdone

theorem recoverable_of_starts (hjobs : JobsOk σ) (hlinks : LinksOk σ) (hidle : (σ.threads q).place = .idle before)
    (htype : e.type = "job.start") (hdone : ((recovery σ q now stamps).threads q).place = .idle done)
    (hstarts : StartsOrReturnsTerminal (recovery σ q now stamps) q e agent later) :
    Recoverable σ (startSlot e agent) := by
  have htables := hjobs.annotated.shared
  have hend := inLoop_recovery now stamps hjobs hlinks hidle
  constructor
  · intro p hheld
    obtain ⟨hrecord, hnone⟩ := (hjobs.annotated.threads p).reserved hheld
    obtain ⟨record, hrecord⟩ := Option.ne_none_iff_exists'.mp hrecord
    have huntouched := untouched_recovery now stamps hjobs hlinks hidle (startSlot e agent)
      fun row hrow hslot => absurd hslot (hnone row hrow)
    obtain ⟨job, hjob, hslot, -⟩ := huntouched.of_starts hdone htype hend.links hstarts hrecord
    exact hnone job hjob hslot
  · intro row hrow hslot hterminal
    have hrecord := htables.record row hrow
    rw [hslot] at hrecord
    obtain ⟨record, hrecord⟩ := Option.ne_none_iff_exists'.mp hrecord
    refine ⟨record, hrecord, ?_⟩
    have huntouched := untouched_recovery now stamps hjobs hlinks hidle (startSlot e agent) ?_
    · obtain ⟨job, -, -, htask, -⟩ := huntouched.of_starts hdone htype hend.links hstarts hrecord
      rw [htask]
      exact Option.some_ne_none _
    · intro row' hrow' hslot' hlisted
      obtain rfl := htables.slots.eq_of_key_eq hrow hrow' (hslot.trans hslot'.symm)
      rw [not_terminal_of_listed hlisted] at hterminal
      cases hterminal
  · intro row hrow hslot hterminal
    by_contra hlisted
    have hrecord := htables.record row hrow
    rw [hslot] at hrecord
    obtain ⟨record, hrecord⟩ := Option.ne_none_iff_exists'.mp hrecord
    have huntouched := untouched_recovery now stamps hjobs hlinks hidle (startSlot e agent) ?_
    · obtain ⟨job, hjob, hjobSlot, -, ended, hget, hended⟩ := huntouched.of_starts hdone htype hend.links hstarts hrecord
      obtain rfl := htables.slots.eq_of_key_eq hrow hjob (hslot.trans hjobSlot.symm)
      have hsame : ended = row := hend.jobs.annotated.shared.ids.eq_of_key_eq (lookup_some hget).1
        ((huntouched.jobs row hslot).mpr hrow) (taskId_getJob hget)
      rw [hsame, hterminal] at hended
      cases hended
    · intro row' hrow' hslot'
      obtain rfl := htables.slots.eq_of_key_eq hrow hrow' (hslot.trans hslot'.symm)
      exact hlisted

end Crash

def isIdle : Place → Bool
  | .idle _ => true
  | _ => false

theorem exists_of_isIdle {place : Place} (h : isIdle place = true) : ∃ outcome, place = .idle outcome := by
  cases place with
  | idle outcome => exact ⟨outcome, rfl⟩
  | _ => cases h

/-- Processes have stopped anywhere. After a recovery of a new process, with the active jobs of the slot stale,
`job_start` returns the id of a terminal job or starts one exactly when nothing was left behind that it does not mend.
-/
theorem jobStart_after_recovery_iff (staleAfterSec : Proc → ℤ) (actions : List (Proc × Move)) (q : Proc) (e : Envelope)
    (agent : String) (now later : DateTime) (stamps : List (DateTime × FreshId))
    (hfresh : Guarded step FreshStep (initial staleAfterSec) actions) (htype : e.type = "job.start")
    (hidle : isIdle ((run step (initial staleAfterSec) actions).threads q).place = true)
    (hworkers : ((run step (initial staleAfterSec) actions).threads q).workers = [])
    (hstale : ∀ row ∈ (run step (initial staleAfterSec) actions).shared.jobs, recordSlot row = startSlot e agent →
      row.isTerminal = false →
      isStale row.heartbeatAt now ((run step (initial staleAfterSec) actions).threads q).staleAfterSec = true)
    (hdone : isIdle ((recovery (run step (initial staleAfterSec) actions) q now stamps).threads q).place = true) :
    StartsOrReturnsTerminal (recovery (run step (initial staleAfterSec) actions) q now stamps) q e agent later ↔
      Recoverable (run step (initial staleAfterSec) actions) (startSlot e agent) := by
  obtain ⟨hjobs, hlinks⟩ := linksOk_run staleAfterSec hfresh
  obtain ⟨_, hidle⟩ := exists_of_isIdle hidle
  obtain ⟨_, hdone⟩ := exists_of_isIdle hdone
  constructor
  · exact recoverable_of_starts hjobs hlinks hidle htype hdone
  · exact starts_of_recoverable hjobs hlinks hidle hworkers htype hstale hdone

def freshId : FreshId := ⟨"t1", t1_ne_empty⟩

def stopsAfterReserve : List (Bool × Move) := [(false, .jobStart reportRequest "writer" (clock 0))]

def stopsAfterCreate : List (Bool × Move) := stopsAfterReserve ++ [(false, Move.advance (clock 0) freshId)]

theorem jobStart_after_recovery_iff_stopsAfterCreate :
    StartsOrReturnsTerminal (recovery (run step (initial fun _ : Bool => 300) stopsAfterCreate) true (clock 800)
        [(clock 800, freshId), (clock 800, freshId)]) true reportRequest "writer" (clock 801) ↔
      Recoverable (run step (initial fun _ : Bool => 300) stopsAfterCreate) (startSlot reportRequest "writer") :=
  jobStart_after_recovery_iff (fun _ => 300) stopsAfterCreate true reportRequest "writer" (clock 800) (clock 801)
    [(clock 800, freshId), (clock 800, freshId)] (by decide +kernel) rfl (by decide +kernel) (by decide +kernel)
    (by decide +kernel) (by decide +kernel)

def raisedCode : Place → Option String
  | .idle (some (.a2aError error)) => some error.code
  | _ => none

theorem not_starts_of_raisedCode {σ : Runtimes Proc} {q : Proc} {e : Envelope} {agent code : String} {now : DateTime}
    (h : raisedCode ((step σ (q, .jobStart e agent now)).threads q).place = some code) :
    ¬ StartsOrReturnsTerminal σ q e agent now := by
  rw [StartsOrReturnsTerminal]
  split
  · next hplace =>
    rw [hplace] at h
    cases h
  · next hplace =>
    rw [hplace] at h
    cases h
  · exact id

/-- After a crash between the reservation and the job row, `job_start` raises `IN_PROGRESS`. -/
theorem jobStart_wedged :
    ¬ ∀ (staleAfterSec : Bool → ℤ) (actions : List (Bool × Move)) (q : Bool) (e : Envelope) (agent : String)
      (now later : DateTime) (stamps : List (DateTime × FreshId)),
      Guarded step FreshStep (initial staleAfterSec) actions → e.type = "job.start" →
      isIdle ((run step (initial staleAfterSec) actions).threads q).place = true →
      ((run step (initial staleAfterSec) actions).threads q).workers = [] →
      (∀ row ∈ (run step (initial staleAfterSec) actions).shared.jobs, recordSlot row = startSlot e agent →
        row.isTerminal = false →
        isStale row.heartbeatAt now ((run step (initial staleAfterSec) actions).threads q).staleAfterSec = true) →
      isIdle ((recovery (run step (initial staleAfterSec) actions) q now stamps).threads q).place = true →
      StartsOrReturnsTerminal (recovery (run step (initial staleAfterSec) actions) q now stamps) q e agent later := by
  intro h
  have hraised : raisedCode ((step (recovery (run step (initial fun _ : Bool => 300) stopsAfterReserve) true (clock 800) [])
      (true, .jobStart reportRequest "writer" (clock 801))).threads true).place = some "IN_PROGRESS" := by decide +kernel
  exact not_starts_of_raisedCode hraised
    (h (fun _ => 300) stopsAfterReserve true reportRequest "writer" (clock 800) (clock 801) [] (by decide +kernel) rfl
      (by decide +kernel) (by decide +kernel) (by decide +kernel) (by decide +kernel))

end OpenMinion.A2AJobRecovery
