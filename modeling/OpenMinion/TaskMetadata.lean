import OpenMinion.TaskPrograms

/-!
# Metadata of tasks

Every writer replaces the metadata of its task as a whole. `mutate_metadata` and the commit of a checkpoint read them
under the write lock; the other writers write back what they have found before.
-/
namespace OpenMinion.TaskMetadata
open InterleavedThreads JsonValues KeyedTables StatementPrograms TaskPrograms TaskRecords ThreadedPrograms TransitionRuns

def item (d : Dict) (key : String) : Option Json := (d.find? (·.1 == key)).map (·.2)

def metadataOf (db : LifecycleDb) (taskId : String) : Dict := ((db.get taskId).map (·.metadata)).getD []

/-- The writer gives the key another value, or removes it. -/
def Alters (change : MetadataChange) (key : String) : Prop := item change.found key ≠ item change.written key

instance (change : MetadataChange) (key : String) : Decidable (Alters change key) := by
  unfold Alters
  infer_instance

def replay (taskId key : String) (changes : List MetadataChange) (value : Option Json) : Option Json :=
  changes.foldl (fun value change => if change.taskId = taskId ∧ Alters change key then item change.written key else value) value

/-- The stored metadata have all the changes that the writers made. -/
def AllStored (db₀ : LifecycleDb) (s : Shared) : Prop :=
  ∀ taskId key, item (metadataOf s.db taskId) key = replay taskId key s.changes (item (metadataOf db₀ taskId) key)

/-- Under the keys that it leaves alone, a writer finds what it read. -/
def FindsWhatItRead (s : Shared) (env : Env) (c : Stmt) : Prop :=
  env.fails = false → (c.writeDb env s.db).isSome = true → ∀ change ∈ c.changes s.db, ∀ key, ¬ Alters change key →
    item (metadataOf s.db change.taskId) key = item change.found key

/-- The metadata are as before, or a writer has replaced those of its task. -/
inductive Replaces (db db' : LifecycleDb) : List MetadataChange → Prop where
  | nothing (h : ∀ taskId, metadataOf db' taskId = metadataOf db taskId) : Replaces db db' []
  | one (change : MetadataChange) (written : metadataOf db' change.taskId = change.written)
      (others : ∀ taskId, taskId ≠ change.taskId → metadataOf db' taskId = metadataOf db taskId) : Replaces db db' [change]

section Writes

variable {db : LifecycleDb}

theorem metadataOf_updateTasks {p : TaskRecord → Bool} {f : TaskRecord → TaskRecord}
    (hid : ∀ row, p row = true → (f row).taskId = row.taskId) (taskId : String) :
    metadataOf (db.updateTasks p f) taskId =
      ((db.get taskId).map fun row => if p row then (f row).metadata else row.metadata).getD [] := by
  rw [metadataOf, LifecycleDb.get_updateTasks hid, Option.map_map]
  congr 2
  funext row
  exact apply_ite TaskRecord.metadata _ _ _

theorem metadataOf_updateTasks_of_keep {p : TaskRecord → Bool} {f : TaskRecord → TaskRecord}
    (hid : ∀ row, p row = true → (f row).taskId = row.taskId) (hkeep : ∀ row, (f row).metadata = row.metadata) (taskId : String) :
    metadataOf (db.updateTasks p f) taskId = metadataOf db taskId := by
  rw [metadataOf_updateTasks hid, metadataOf]
  congr 2
  funext row
  rw [hkeep, ite_self]

theorem replaces_updateTasks {p : TaskRecord → Bool} {f : TaskRecord → TaskRecord}
    (hid : ∀ row, p row = true → (f row).taskId = row.taskId) (taskId : String) (found metadata : Dict)
    (hp : ∀ row, p row = true → row.taskId = taskId) (hf : ∀ row, (f row).metadata = metadata) :
    Replaces db (db.updateTasks p f) (((db.get taskId).filter p).toList.map fun _ => ⟨taskId, found, metadata⟩) := by
  have hothers : ∀ other, other ≠ taskId → metadataOf (db.updateTasks p f) other = metadataOf db other := by
    intro other hne
    rw [metadataOf_updateTasks hid, metadataOf]
    cases hget : db.get other with
    | none => rfl
    | some row =>
      have hrow : p row ≠ true := fun htrue => hne ((lookup_some hget).2.symm.trans (hp row htrue))
      rw [Option.map_some, if_neg hrow, Option.map_some]
  have hself : metadataOf (db.updateTasks p f) taskId = _ := metadataOf_updateTasks hid taskId
  cases hget : db.get taskId with
  | none =>
    refine .nothing fun other => ?_
    by_cases hother : other = taskId
    · rw [hother, hself, hget, metadataOf, hget]
      rfl
    · exact hothers other hother
  | some row =>
    rw [hget, Option.map_some] at hself
    cases hrow : p row with
    | true =>
      rw [hrow, if_pos rfl, hf] at hself
      rw [Option.filter_some, if_pos hrow]
      exact .one ⟨taskId, found, metadata⟩ hself hothers
    | false =>
      rw [hrow, if_neg Bool.false_ne_true] at hself
      rw [Option.filter_some, hrow, if_neg Bool.false_ne_true]
      refine .nothing fun other => ?_
      by_cases hother : other = taskId
      · rw [hother, hself, metadataOf, hget]
        rfl
      · exact hothers other hother

/-- A whole replacement, as `update_metadata` writes it. -/
theorem replaces_updateMetadata (taskId : String) (found metadata : Dict) (now : String) :
    Replaces db (db.updateMetadata taskId metadata now) ((db.get taskId).toList.map fun _ => ⟨taskId, found, metadata⟩) := by
  have h : Replaces db (db.updateMetadata taskId metadata now) _ :=
    replaces_updateTasks (by exact fun _ _ => rfl) taskId found metadata (by exact fun _ hp => of_decide_eq_true hp) (by exact fun _ => rfl)
  cases hget : db.get taskId with
  | none =>
    rw [hget] at h
    exact h
  | some row =>
    have hrow : decide (row.taskId = taskId) = true := decide_eq_true (lookup_some hget).2
    rw [hget, Option.filter_some, if_pos hrow] at h
    exact h

theorem replaces_create {record : TaskRecord} {db' : LifecycleDb} (h : db.create record = some db') :
    Replaces db db' [⟨record.taskId, [], record.metadata⟩] := by
  rw [LifecycleDb.create] at h
  split at h
  · cases h
  · next hfree =>
    cases h
    have hget : ∀ taskId, LifecycleDb.get { db with tasks := db.tasks ++ [record] } taskId =
        (db.get taskId).or (lookup TaskRecord.taskId taskId [record]) := fun taskId => List.find?_append
    refine .one _ ?_ fun taskId hne => ?_
    · have hnone : db.get record.taskId = none := by
        rw [LifecycleDb.get, lookup_eq_none]
        intro row hrow hid
        apply hfree
        rw [List.any_eq_true]
        exact ⟨row, hrow, by simp [hid]⟩
      rw [metadataOf, hget, hnone]
      simp [lookup]
    · have hother : lookup TaskRecord.taskId taskId [record] = none := by simp [lookup, Ne.symm hne]
      rw [metadataOf, hget, hother, Option.or_none, metadataOf]

theorem replaces_writeDb {env : Env} {c : Stmt} {db' : LifecycleDb} (h : c.writeDb env db = some db') :
    Replaces db db' (c.changes db) := by
  cases c with
  | create record => exact replaces_create h
  | transition record toState failureReason =>
    cases h
    refine .nothing fun taskId => ?_
    rw [LifecycleDb.transition]
    split
    · refine (metadataOf_updateTasks_of_keep (by exact fun _ _ => rfl) (by exact fun _ => rfl) taskId).trans ?_
      exact metadataOf_updateTasks_of_keep (by exact fun _ _ => rfl) (by exact fun _ => rfl) taskId
    · exact metadataOf_updateTasks_of_keep (by exact fun _ _ => rfl) (by exact fun _ => rfl) taskId
  | recordScheduledOutcome record change found metadata failureReason =>
    cases h
    have hwrite : Replaces db (db.recordScheduledOutcome record change.expected change.toState metadata failureReason
        (IsoTimestamps.toIsoUtc env.now)) _ :=
      replaces_updateTasks (by exact fun _ _ => rfl) record.taskId found metadata
        (by exact fun _ hp => of_decide_eq_true (Bool.and_eq_true_iff.mp hp).1) (by exact fun _ => rfl)
    have hsame : (db.get record.taskId).filter (fun row => row.taskId = record.taskId && row.state = change.expected) =
        (db.get record.taskId).filter (fun row => row.state = change.expected) := by
      cases hget : db.get record.taskId with
      | none => rfl
      | some row => simp [Option.filter, (lookup_some hget).2]
    rw [hsame] at hwrite
    exact hwrite
  | updateMetadata taskId found metadata =>
    cases h
    exact replaces_updateMetadata taskId found metadata _
  | mutateMetadata taskId mutate =>
    obtain ⟨row, hrow, hmutate⟩ := Option.bind_eq_some_iff.mp h
    obtain ⟨metadata, hmetadata, rfl⟩ := Option.map_eq_some_iff.mp hmutate
    have hwrite : Replaces db (db.updateMetadata taskId metadata (IsoTimestamps.toIsoUtc env.now)) _ :=
      replaces_updateMetadata taskId row.metadata metadata _
    simpa [Stmt.changes, hrow, hmetadata] using hwrite
  | commitCheckpoint claim checkpointId state committedAt =>
    rw [Stmt.writeDb, LifecycleDb.commitCheckpoint] at h
    split at h
    · cases h
    · obtain ⟨row, hrow, rfl⟩ := Option.map_eq_some_iff.mp h
      have hwrite : Replaces db (db.updateMetadata claim.taskId (Dict.set row.metadata "last_checkpoint_id" (.str checkpointId))
          (IsoTimestamps.toIsoUtc committedAt)) _ := replaces_updateMetadata claim.taskId row.metadata _ _
      rw [Stmt.changes, hrow]
      rw [hrow] at hwrite
      cases hwrite with
      | one change written others => exact .one _ written others
  | look | putClaim | expireClaim | setCronJobEnabled | replaceCronJobPayload | deleteCronJob | cronChange =>
    cases h
    exact .nothing fun _ => rfl

end Writes

theorem replay_append (taskId key : String) (changes : List MetadataChange) (change : MetadataChange) (value : Option Json) :
    replay taskId key (changes ++ [change]) value =
      if change.taskId = taskId ∧ Alters change key then item change.written key else replay taskId key changes value := by
  rw [replay, List.foldl_append]
  rfl

theorem replay_of_not_alters {taskId key : String} {changes : List MetadataChange}
    (h : ∀ change ∈ changes, change.taskId = taskId → ¬ Alters change key) (value : Option Json) :
    replay taskId key changes value = value := by
  induction changes generalizing value with
  | nil => rfl
  | cons change changes ih =>
    have hhead : ¬ (change.taskId = taskId ∧ Alters change key) := fun hboth => h change List.mem_cons_self hboth.1 hboth.2
    rw [replay, List.foldl_cons, if_neg hhead]
    exact ih (fun other hother => h other (List.mem_cons_of_mem change hother)) value

theorem AllStored.of_last {db₀ : LifecycleDb} {s : Shared} (h : AllStored db₀ s) {earlier later : List MetadataChange}
    {change : MetadataChange} (hchanges : s.changes = earlier ++ change :: later) {key : String} (halters : Alters change key)
    (hlater : ∀ other ∈ later, other.taskId = change.taskId → ¬ Alters other key) :
    item (metadataOf s.db change.taskId) key = item change.written key := by
  rw [h, hchanges, replay, List.foldl_append, List.foldl_cons, if_pos ⟨rfl, halters⟩]
  exact replay_of_not_alters hlater _

theorem allStored_exec_iff {db₀ : LifecycleDb} {s : Shared} (h : AllStored db₀ s) (env : Env) (c : Stmt) :
    AllStored db₀ (exec s env c).1 ↔ FindsWhatItRead s env c := by
  rw [exec, FindsWhatItRead]
  cases hfails : env.fails with
  | true => exact ⟨fun _ hnot => absurd hnot (by decide), fun _ => h⟩
  | false =>
    rw [if_neg Bool.false_ne_true]
    cases hwrite : c.writeDb env s.db with
    | none => exact ⟨fun _ _ hsome => absurd hsome (by decide), fun _ => h⟩
    | some db =>
      have hreplaces := replaces_writeDb hwrite
      dsimp only [AllStored]
      generalize c.changes s.db = changes at hreplaces ⊢
      cases hreplaces with
      | nothing hsame =>
        refine ⟨fun _ _ _ change hchange => absurd hchange List.not_mem_nil, fun _ taskId key => ?_⟩
        rw [hsame, List.append_nil]
        exact h taskId key
      | one change hwritten hothers =>
        constructor
        · intro hall _ _ other hother key hkeeps
          rw [List.mem_singleton.mp hother] at hkeeps ⊢
          have hkey := hall change.taskId key
          rw [hwritten, replay_append, if_neg fun hboth => hkeeps hboth.2, ← h] at hkey
          exact hkey.symm.trans (not_not.mp hkeeps).symm
        · intro hfinds taskId key
          rw [replay_append]
          by_cases htask : taskId = change.taskId
          · rw [htask, hwritten]
            by_cases halters : Alters change key
            · rw [if_pos ⟨rfl, halters⟩]
            · rw [if_neg fun hboth => halters hboth.2, ← h, hfinds rfl rfl change (List.mem_singleton_self change) key halters]
              exact (not_not.mp halters).symm
          · rw [hothers taskId htask, if_neg fun hboth => htask hboth.1.symm]
            exact h taskId key

section Runs

variable (lib : TaskLibrary) {Thread : Type} [DecidableEq Thread] (db : LifecycleDb)

def KeepsChanges (σ : System Thread Shared Prog) (action : Action Thread Op Env) : Prop :=
  AllStored db ((threads lib).step σ action).shared

/-- **Changes of different keys are all stored while writers find what they read.** -/
theorem changes_stored_iff (Thread : Type) [DecidableEq Thread] (jobs : List CronJob) (actions : List (Action Thread Op Env)) :
    (Guarded (threads lib).step (KeepsChanges lib db) (initial Thread db jobs) actions ↔
      Guarded (threads lib).step (AtStatement FindsWhatItRead) (initial Thread db jobs) actions) ∧
    (Guarded (threads lib).step (AtStatement FindsWhatItRead) (initial Thread db jobs) actions →
      ∀ earlier change later,
        (run (threads lib).step (initial Thread db jobs) actions).shared.changes = earlier ++ change :: later →
        ∀ key, Alters change key → (∀ other ∈ later, other.taskId = change.taskId → ¬ Alters other key) →
          item (metadataOf (run (threads lib).step (initial Thread db jobs) actions).shared.db change.taskId) key =
            item change.written key) := by
  have hinitial : AllStored db (initial Thread db jobs).shared := fun _ _ => rfl
  constructor
  · refine guarded_iff (I := fun σ : System Thread Shared Prog => AllStored db σ.shared) (fun _ _ _ hkeeps => hkeeps) ?_ hinitial actions
    intro σ action hσ
    have hstep : AtStatement (fun s env c => AllStored db (exec s env c).1) σ action ↔ KeepsChanges lib db σ action :=
      atStatement_step (R := fun _ s => AllStored db s) hσ action
    exact hstep.symm.trans (AtStatement.iff (allStored_exec_iff hσ) action)
  · intro h earlier change later hchanges key halters hlater
    have hstored : AllStored db (run (threads lib).step (initial Thread db jobs) actions).shared :=
      shared_run (I := AllStored db) (fun s env c hs hok => (allStored_exec_iff hs env c).mpr hok) hinitial h
    exact hstored.of_last hchanges halters hlater

/-- The first writer has read the metadata; the second one changes another key, and then the first one writes. -/
def twoWriters : List (Action Bool Op Env) :=
  [.start false (.updateTaskMetadata "task" fun metadata => Dict.set metadata "project_run_id" (.str "run")),
    .advance false (.atMicros 0 IsoTimestamps.zero_lt_endOfTime),
    .start true (.mutateTaskMetadata "task" fun _ metadata => some (Dict.set metadata "priority" (.str "high"))),
    .advance true (.atMicros 0 IsoTimestamps.zero_lt_endOfTime), .advance true (.atMicros 0 IsoTimestamps.zero_lt_endOfTime), .advance false (.atMicros 0 IsoTimestamps.zero_lt_endOfTime), .advance false (.atMicros 0 IsoTimestamps.zero_lt_endOfTime)]

/-- The priority is gone. -/
theorem stale_metadata_written :
    ¬ ∀ actions : List (Action Bool Op Env),
      Guarded (threads .plain).step (KeepsChanges .plain { tasks := [activeTask] }) (initial Bool { tasks := [activeTask] } []) actions := by
  intro h
  have hlast := (guarded_append.mp (h (twoWriters ++ [Action.advance false (Env.atMicros 0)]))).2
  cases hlast with
  | cons hkeeps _ =>
    have hstored := hkeeps "task" "priority"
    revert hstored
    decide +kernel

end Runs

end OpenMinion.TaskMetadata
