import OpenMinion.SessionStateWrites

/-!
# Two projections of the open tasks

`derive_open_tasks` keeps a status for each task or job, `update_derived_views` a list of descriptions. Neither closes a
task or job at every event that ends it.
-/
namespace OpenMinion.TaskProjections
open JsonValues KeyedTables SessionEventWrites SessionStateWrites SessionTables

def finishTypes : List String := ["task.completed", "task.cancelled", "task.failed", "job.completed", "job.cancelled", "job.failed"]

def lifecycleTypes : List String :=
  ["task.created", "task.started", "task.opened", "task.updated", "job.created", "job.started"] ++ finishTypes

section
variable (rt : Runtime)

/-- The last lifecycle event of the task or job ends it. -/
def Finished (log : List SessionEventRow) (id : String) : Prop :=
  ∃ e, (log.filter fun e => e.eventType ∈ lifecycleTypes ∧ taskKey rt e = some id).getLast? = some e ∧ e.eventType ∈ finishTypes

/-- The events of a task or job that `derive_open_tasks` reads. -/
def ownEvents (log : List SessionEventRow) (id : String) : List SessionEventRow :=
  (log.filter fun e => likePrefix "task." e.eventType || likePrefix "job." e.eventType).filter fun e => taskKey rt e = some id

def carriedStatus (payload : Dict) : Option String :=
  if (payload.get "status").truthy then some (rt.pyStr (payload.get "status")) else none

def recordedBy (e : SessionEventRow) : Option String :=
  match e.eventType with
  | "task.opened" => some ((carriedStatus rt e.payload).getD "open")
  | "task.updated" => carriedStatus rt e.payload
  | "job.created" => some ((carriedStatus rt e.payload).getD "queued")
  | "job.started" => some ((carriedStatus rt e.payload).getD "running")
  | "job.completed" => some ((carriedStatus rt e.payload).getD "completed")
  | "job.cancelled" => some ((carriedStatus rt e.payload).getD "cancelled")
  | _ => none

def initialStatus (e : SessionEventRow) : String := (carriedStatus rt e.payload).getD "open"

def recordedStatus (own : List SessionEventRow) : String :=
  (own.filterMap (recordedBy rt)).getLast?.getD ((own.head?.map (initialStatus rt)).getD "")

end

/-- The open tasks of `update_derived_views`. -/
def derivedOpenTasks (log : List SessionEventRow) : List Json := log.foldl derivedTaskEvent []

def openingTypes : List String := ["task.created", "task.started"]

def endingTypes : List String := ["task.completed", "task.cancelled", "task.failed"]

/-- The last event with this description that `update_derived_views` reads opens the task. -/
def LeftOpen (log : List SessionEventRow) (description : String) : Prop :=
  description ≠ "" ∧ ∃ e, (log.filter fun e => e.eventType ∈ openingTypes ++ endingTypes ∧
    taskDescription e.payload = .str description).getLast? = some e ∧ e.eventType ∈ openingTypes

section
variable {rt : Runtime}

theorem carriedStatus_ne (hrepr : ∀ v, rt.reprOf v ≠ "") {payload : Dict} {status : String}
    (h : carriedStatus rt payload = some status) : status ≠ "" := by
  rw [carriedStatus] at h
  split at h
  · next htruthy =>
    cases h
    cases hvalue : payload.get "status" with
    | str s =>
      rw [hvalue] at htruthy
      change s ≠ ""
      simpa [Json.truthy] using htruthy
    | _ => exact hrepr _
  · cases h

theorem carriedStatus_getD_ne (hrepr : ∀ v, rt.reprOf v ≠ "") {payload : Dict} {fallback : String} (hfallback : fallback ≠ "") :
    (carriedStatus rt payload).getD fallback ≠ "" := by
  cases h : carriedStatus rt payload with
  | none => exact hfallback
  | some status => exact carriedStatus_ne hrepr h

theorem recordedBy_ne (hrepr : ∀ v, rt.reprOf v ≠ "") {e : SessionEventRow} {status : String} (h : recordedBy rt e = some status) :
    status ≠ "" := by
  rw [recordedBy] at h
  split at h
  · cases h
    exact carriedStatus_getD_ne hrepr (by decide)
  · exact carriedStatus_ne hrepr h
  · cases h
    exact carriedStatus_getD_ne hrepr (by decide)
  · cases h
    exact carriedStatus_getD_ne hrepr (by decide)
  · cases h
    exact carriedStatus_getD_ne hrepr (by decide)
  · cases h
    exact carriedStatus_getD_ne hrepr (by decide)
  · cases h

theorem openTaskStatus_eq {current : String} (hcurrent : current ≠ "") (e : SessionEventRow) :
    openTaskStatus rt e.eventType e.payload current = (recordedBy rt e).getD current := by
  unfold openTaskStatus recordedBy carriedStatus
  generalize e.eventType = eventType
  by_cases htruthy : (e.payload.get "status").truthy = true
  · simp only [if_pos htruthy]
    split
    case h_7 => simp_all
    all_goals rfl
  · simp only [if_neg htruthy, if_neg hcurrent]
    split
    case h_7 => simp_all
    all_goals rfl

theorem foldl_status (hrepr : ∀ v, rt.reprOf v ≠ "") (own : List SessionEventRow) {status : String} (hstatus : status ≠ "") :
    own.foldl (fun status e => openTaskStatus rt e.eventType e.payload status) status =
      (own.filterMap (recordedBy rt)).getLast?.getD status := by
  induction own generalizing status with
  | nil => rfl
  | cons e own ih =>
    rw [List.foldl_cons, openTaskStatus_eq hstatus]
    cases hrecorded : recordedBy rt e with
    | none =>
      rw [List.filterMap_cons_none hrecorded]
      exact ih hstatus
    | some recorded =>
      rw [List.filterMap_cons_some hrecorded, List.getLast?_cons]
      exact ih (recordedBy_ne hrepr hrecorded)

def statusIn (byTask : List OpenTask) (id : String) : Option String := (lookup OpenTask.taskId id byTask).map OpenTask.status

theorem unique_openTaskEvent {byTask : List OpenTask} (h : UniqueKey OpenTask.taskId byTask) (e : SessionEventRow) :
    UniqueKey OpenTask.taskId (openTaskEvent rt byTask e) := by
  rw [openTaskEvent]
  split
  · exact h
  · next key _ =>
    refine UniqueKey.updateWhere ?_ fun _ _ => rfl
    split
    · exact h
    · next hany =>
      refine h.append_singleton fun t ht heq => hany ?_
      exact List.any_eq_true.mpr ⟨t, ht, decide_eq_true heq⟩

/-- `setdefault`: a task is added when it has no entry. -/
theorem lookup_setdefault (byTask : List OpenTask) (t : OpenTask) (key id : String) (ht : t.taskId = key) :
    lookup OpenTask.taskId id (if byTask.any fun u => u.taskId = key then byTask else byTask ++ [t]) =
      (lookup OpenTask.taskId id byTask).or (if key = id then some t else none) := by
  subst ht
  by_cases hany : (byTask.any fun u => u.taskId = t.taskId) = true
  · rw [if_pos hany]
    by_cases hid : t.taskId = id
    · obtain ⟨u, hu, huid⟩ := List.any_eq_true.mp hany
      have hsome : lookup OpenTask.taskId id byTask ≠ none := fun hnone =>
        lookup_eq_none.mp hnone u hu ((of_decide_eq_true huid).trans hid)
      obtain ⟨found, hfound⟩ := Option.ne_none_iff_exists'.mp hsome
      rw [hfound, Option.some_or]
    · rw [if_neg hid, Option.or_none]
  · rw [if_neg hany, lookup, List.find?_append]
    by_cases hid : t.taskId = id
    · simp [lookup, hid]
    · simp [lookup, hid]

theorem statusIn_openTaskEvent (byTask : List OpenTask) (e : SessionEventRow) (id : String) :
    statusIn (openTaskEvent rt byTask e) id =
      if taskKey rt e = some id then
        some (openTaskStatus rt e.eventType e.payload ((statusIn byTask id).getD (initialStatus rt e)))
      else statusIn byTask id := by
  rw [openTaskEvent]
  cases hkey : taskKey rt e with
  | none => simp
  | some key =>
    refine (congrArg (Option.map OpenTask.status) (lookup_updateWhere (by intro _ _; rfl) id)).trans ?_
    rw [lookup_setdefault byTask _ key id rfl]
    have hinitial : (if (e.payload.get "status").truthy then rt.pyStr (e.payload.get "status") else "open") = initialStatus rt e := by
      rw [initialStatus, carriedStatus]
      split
      · rfl
      · rfl
    by_cases hid : key = id
    · rw [if_pos hid, if_pos (congrArg some hid), statusIn]
      cases hfound : lookup OpenTask.taskId id byTask with
      | none => simp [hid, hinitial]
      | some t => simp [(lookup_some hfound).2, hid]
    · rw [if_neg hid, if_neg (fun heq => hid (Option.some.inj heq)), Option.or_none, statusIn]
      cases hfound : lookup OpenTask.taskId id byTask with
      | none => rfl
      | some t =>
        have hne : t.taskId ≠ key := fun heq => hid (heq.symm.trans (lookup_some hfound).2)
        simp [hne]

theorem statusIn_foldl (rows : List SessionEventRow) (byTask : List OpenTask) (id : String) :
    statusIn (rows.foldl (openTaskEvent rt) byTask) id = (rows.filter fun e => taskKey rt e = some id).foldl
      (fun status e => some (openTaskStatus rt e.eventType e.payload (status.getD (initialStatus rt e)))) (statusIn byTask id) := by
  induction rows generalizing byTask with
  | nil => rfl
  | cons e rows ih =>
    rw [List.foldl_cons, ih, statusIn_openTaskEvent]
    by_cases hkey : taskKey rt e = some id
    · rw [if_pos hkey, List.filter_cons, if_pos (decide_eq_true hkey), List.foldl_cons]
    · rw [if_neg hkey, List.filter_cons, if_neg (by simpa using hkey)]

theorem foldl_some_status (own : List SessionEventRow) (status : String) :
    own.foldl (fun status e => some (openTaskStatus rt e.eventType e.payload (status.getD (initialStatus rt e)))) (some status) =
      some (own.foldl (fun status e => openTaskStatus rt e.eventType e.payload status) status) := by
  induction own generalizing status with
  | nil => rfl
  | cons e own ih => exact ih _

theorem statusIn_recorded (hrepr : ∀ v, rt.reprOf v ≠ "") {rows : List SessionEventRow} {id : String}
    (hown : rows.filter (fun e => taskKey rt e = some id) ≠ []) :
    statusIn (rows.foldl (openTaskEvent rt) []) id = some (recordedStatus rt (rows.filter fun e => taskKey rt e = some id)) := by
  rw [statusIn_foldl]
  generalize rows.filter (fun e => decide (taskKey rt e = some id)) = own at hown
  cases own with
  | nil => exact absurd rfl hown
  | cons e own =>
    have hinitial : initialStatus rt e ≠ "" := carriedStatus_getD_ne hrepr (by decide)
    have hfold := foldl_status hrepr (e :: own) hinitial
    rw [List.foldl_cons] at hfold
    rw [List.foldl_cons, recordedStatus]
    change List.foldl _ (some (openTaskStatus rt e.eventType e.payload (initialStatus rt e))) own = _
    rw [foldl_some_status, hfold]
    rfl

theorem mem_deriveOpenTasks {db : SessionDb} {sid id : String} :
    id ∈ (deriveOpenTasks rt db sid none).map OpenTask.taskId ↔ ∃ status,
      statusIn (((eventsOf db sid).filter fun e => likePrefix "task." e.eventType || likePrefix "job." e.eventType).foldl
        (openTaskEvent rt) []) id = some status ∧ rt.lower status ∉ closedTaskStatuses := by
  have hunique : UniqueKey OpenTask.taskId (((eventsOf db sid).filter fun e =>
      likePrefix "task." e.eventType || likePrefix "job." e.eventType).foldl (openTaskEvent rt) []) :=
    List.foldlRecOn _ _ .nil fun _ h e _ => unique_openTaskEvent h e
  rw [List.mem_map]
  constructor
  · rintro ⟨t, ht, rfl⟩
    obtain ⟨hmem, hopen⟩ := List.mem_filter.mp ((List.perm_insertionSort _ _).mem_iff.mp ht)
    refine ⟨t.status, ?_, of_decide_eq_true hopen⟩
    rw [statusIn, hunique.lookup_eq_some_iff.mpr ⟨hmem, rfl⟩]
    rfl
  · rintro ⟨status, hstatus, hopen⟩
    obtain ⟨t, hlookup, rfl⟩ := Option.map_eq_some_iff.mp hstatus
    obtain ⟨hmem, hid⟩ := lookup_some hlookup
    exact ⟨t, (List.perm_insertionSort _ _).mem_iff.mpr (List.mem_filter.mpr ⟨hmem, decide_eq_true hopen⟩), hid⟩

end

theorem str_pyEq {s : String} {v : Json} : (Json.str s).pyEq v = true ↔ v = .str s := by
  cases v with
  | str t =>
    rw [Json.pyEq, beq_iff_eq, Json.str.injEq]
    exact eq_comm
  | _ => simp [Json.pyEq, Json.number]

theorem eraseP_pyEq {openTasks : List Json} (s : String) : openTasks.eraseP (Json.str s).pyEq = openTasks.erase (.str s) := by
  rw [List.erase_eq_eraseP]
  congr 1
  funext v
  rw [Bool.eq_iff_iff, str_pyEq, beq_iff_eq]
  exact eq_comm

theorem count_eraseP_of_neg {p : Json → Bool} {v : Json} (hv : p v = false) (openTasks : List Json) :
    (openTasks.eraseP p).count v = openTasks.count v := by
  induction openTasks with
  | nil => rfl
  | cons u openTasks ih =>
    by_cases hu : p u = true
    · have hne : u ≠ v := fun heq => by
        rw [heq, hv] at hu
        cases hu
      rw [List.eraseP_cons_of_pos hu, List.count_cons_of_ne hne]
    · rw [List.eraseP_cons_of_neg hu, List.count_cons, List.count_cons, ih]

theorem derivedTaskEvent_other (openTasks : List Json) {e : SessionEventRow} {s : String}
    (hother : e.eventType ∈ openingTypes ++ endingTypes → taskDescription e.payload ≠ .str s) :
    (derivedTaskEvent openTasks e).count (.str s) = openTasks.count (.str s) := by
  rw [derivedTaskEvent]
  split
  · next hopening =>
    have hne := hother (List.mem_append_left _ hopening)
    split
    · rw [List.count_append, List.count_singleton, if_neg (by simpa using hne), Nat.add_zero]
    · rfl
  · split
    · next hending =>
      have hne := hother (List.mem_append_right _ hending)
      refine count_eraseP_of_neg ?_ openTasks
      rw [← Bool.not_eq_true, Json.pyEq_str]
      exact hne
    · rfl

theorem derivedOpenTasks_spec (log : List SessionEventRow) (s : String) :
    (derivedOpenTasks log).count (.str s) ≤ 1 ∧ (Json.str s ∈ derivedOpenTasks log ↔ LeftOpen log s) := by
  induction log using List.reverseRecOn with
  | nil =>
    refine ⟨Nat.zero_le 1, iff_of_false List.not_mem_nil ?_⟩
    rintro ⟨-, e, he, -⟩
    cases he
  | append_singleton log e ih =>
    obtain ⟨hcount, hopen⟩ := ih
    rw [derivedOpenTasks, List.foldl_append, List.foldl_cons, List.foldl_nil]
    change ((derivedTaskEvent (derivedOpenTasks log) e).count _ ≤ 1) ∧ (_ ∈ derivedTaskEvent (derivedOpenTasks log) e ↔ _)
    by_cases hown : e.eventType ∈ openingTypes ++ endingTypes ∧ taskDescription e.payload = .str s
    · have hlast : LeftOpen (log ++ [e]) s ↔ s ≠ "" ∧ e.eventType ∈ openingTypes := by
        rw [LeftOpen, List.filter_append, List.filter_cons, if_pos (decide_eq_true hown), List.filter_nil, List.getLast?_append]
        simp
      rw [hlast, derivedTaskEvent]
      simp only [hown.2]
      by_cases hopening : e.eventType ∈ openingTypes
      · have hopening' : e.eventType ∈ ["task.created", "task.started"] := hopening
        rw [if_pos hopening']
        by_cases hadd : ((Json.str s).truthy && !(derivedOpenTasks log).any (Json.str s).pyEq) = true
        · rw [if_pos hadd]
          obtain ⟨htruthy, hany⟩ := Bool.and_eq_true_iff.mp hadd
          have hne : s ≠ "" := by simpa [Json.truthy] using htruthy
          have hnew : Json.str s ∉ derivedOpenTasks log := fun hmem =>
            Bool.not_eq_true _ ▸ Bool.not_eq_true' _ ▸ hany <| List.any_eq_true.mpr ⟨_, hmem, str_pyEq.mpr rfl⟩
          rw [List.count_append, List.count_eq_zero.mpr hnew, List.count_singleton_self]
          exact ⟨Nat.le_refl _, iff_of_true (List.mem_append_right _ (List.mem_singleton_self _)) ⟨hne, hopening⟩⟩
        · rw [if_neg hadd]
          refine ⟨hcount, fun hmem => ⟨(hopen.mp hmem).1, hopening⟩, fun ⟨hne, _⟩ => ?_⟩
          have htruthy : (Json.str s).truthy = true := by simpa [Json.truthy] using hne
          rw [htruthy, Bool.true_and, Bool.not_eq_true', Bool.not_eq_false] at hadd
          obtain ⟨v, hmem, hv⟩ := List.any_eq_true.mp hadd
          exact str_pyEq.mp hv ▸ hmem
      · have hopening' : e.eventType ∉ ["task.created", "task.started"] := hopening
        have hending : e.eventType ∈ ["task.completed", "task.cancelled", "task.failed"] :=
          (List.mem_append.mp hown.1).resolve_left hopening
        rw [if_neg hopening', if_pos hending, eraseP_pyEq]
        have hgone : ((derivedOpenTasks log).erase (.str s)).count (.str s) = 0 := by
          rw [List.count_erase_self]
          omega
        exact ⟨hgone.trans_le (Nat.zero_le 1), iff_of_false (List.count_eq_zero.mp hgone) fun h => hopening h.2⟩
    · have hkept := derivedTaskEvent_other (derivedOpenTasks log) fun htype heq => hown ⟨htype, heq⟩
      have hsame : LeftOpen (log ++ [e]) s ↔ LeftOpen log s := by
        rw [LeftOpen, LeftOpen, List.filter_append, List.filter_cons, if_neg (by simpa using hown), List.filter_nil, List.append_nil]
      rw [hsame, ← hopen, hkept, ← List.count_pos_iff, ← List.count_pos_iff, hkept]
      exact ⟨hcount, Iff.rfl⟩

theorem likePrefix_of_finish : ∀ eventType ∈ finishTypes, (likePrefix "task." eventType || likePrefix "job." eventType) = true := by
  decide +kernel

theorem ownEvents_of_finished {rt : Runtime} {log : List SessionEventRow} {id : String} (h : Finished rt log id) :
    ownEvents rt log id ≠ [] := by
  obtain ⟨e, hlast, hfinish⟩ := h
  obtain ⟨hmem, hown⟩ := List.mem_filter.mp (List.mem_of_getLast? hlast)
  have hkept : e ∈ ownEvents rt log id := List.mem_filter.mpr
    ⟨List.mem_filter.mpr ⟨hmem, likePrefix_of_finish _ hfinish⟩, decide_eq_true (of_decide_eq_true hown).2⟩
  exact List.ne_nil_of_mem hkept

/-- A finished task or job stays out of both projections exactly when the last status is a closed one and the last
task event with its description does not open it. -/
theorem closesFinished_iff {rt : Runtime} (hrepr : ∀ v, rt.reprOf v ≠ "") {db : SessionDb} {sid id : String}
    (hfinished : Finished rt (eventsOf db sid) id) :
    id ∉ (deriveOpenTasks rt db sid none).map OpenTask.taskId ∧ Json.str id ∉ derivedOpenTasks (eventsOf db sid) ↔
      rt.lower (recordedStatus rt (ownEvents rt (eventsOf db sid) id)) ∈ closedTaskStatuses ∧
        ¬ LeftOpen (eventsOf db sid) id := by
  have hstatus : statusIn (((eventsOf db sid).filter fun e => likePrefix "task." e.eventType || likePrefix "job." e.eventType).foldl
      (openTaskEvent rt) []) id = some (recordedStatus rt (ownEvents rt (eventsOf db sid) id)) :=
    statusIn_recorded hrepr (ownEvents_of_finished hfinished)
  refine and_congr ?_ (not_congr (derivedOpenTasks_spec _ id).2)
  rw [mem_deriveOpenTasks, hstatus]
  constructor
  · intro hclosed
    by_contra hopen
    exact hclosed ⟨_, rfl, hopen⟩
  · rintro hclosed ⟨status, heq, hopen⟩
    cases heq
    exact hopen hclosed

/-- A platform that prints every other value as `?`. -/
def taskRuntime : Runtime where
  uuid5Hex _ := "00000000000000000000000000000000"
  uuid5Hex_ne _ := zeroHex_ne_empty
  reprOf _ := "?"
  lower := id
  redactSensitiveText := id
  parseInt _ := none
  stepTaskId _ _ := .error (.valueError "task plan start requires an active plan")

theorem taskRuntime_repr (v : Json) : taskRuntime.reprOf v ≠ "" := by
  change "?" ≠ ""
  decide

def taskEvent (seq : ℕ) (eventType : String) (payload : Dict) : SessionEventRow where
  eventId := eventType
  sessionId := "s"
  seq := seq
  timestamp := ⟨63919965600000000, IsoTimestamps.tenOClock_lt_endOfTime⟩
  eventType := eventType
  actorType := "agent"
  actorId := none
  traceId := none
  spanId := none
  taskId := none
  parentEventId := none
  payload := payload
  refs := []
  importance := 0
  redaction := "none"

def completedTask : SessionDb where
  sessionEvents := [taskEvent 1 "task.started" [("task_id", .str "t")], taskEvent 2 "task.completed" [("task_id", .str "t")]]

def completedJob : SessionDb where
  sessionEvents := [taskEvent 1 "job.created" [("job_id", .str "j")], taskEvent 2 "job.completed" [("job_id", .str "j")]]

theorem finished_job : Finished taskRuntime (eventsOf completedJob "s") "j" :=
  ⟨taskEvent 2 "job.completed" [("job_id", .str "j")], by decide +kernel, by decide +kernel⟩

theorem finished_task : Finished taskRuntime (eventsOf completedTask "s") "t" :=
  ⟨taskEvent 2 "task.completed" [("task_id", .str "t")], by decide +kernel, by decide +kernel⟩

theorem closesFinished_job_iff :
    "j" ∉ (deriveOpenTasks taskRuntime completedJob "s" none).map OpenTask.taskId ∧
        Json.str "j" ∉ derivedOpenTasks (eventsOf completedJob "s") ↔
      taskRuntime.lower (recordedStatus taskRuntime (ownEvents taskRuntime (eventsOf completedJob "s") "j")) ∈ closedTaskStatuses ∧
        ¬ LeftOpen (eventsOf completedJob "s") "j" :=
  closesFinished_iff taskRuntime_repr finished_job

/-- `task.completed` leaves the status of the first event. -/
theorem completed_task_open :
    ¬ ∀ (rt : Runtime) (db : SessionDb) (sid id : String), (∀ v, rt.reprOf v ≠ "") → Finished rt (eventsOf db sid) id →
      id ∉ (deriveOpenTasks rt db sid none).map OpenTask.taskId ∧ Json.str id ∉ derivedOpenTasks (eventsOf db sid) := by
  intro h
  refine (h taskRuntime completedTask "s" "t" taskRuntime_repr finished_task).1 ?_
  decide +kernel

end OpenMinion.TaskProjections
