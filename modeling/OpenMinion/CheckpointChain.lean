import OpenMinion.TaskPrograms

/-!
# The chain of project checkpoints

The commit of a checkpoint checks the claim and the latest checkpoint before the statement that takes the write lock.
The checkpoints of a task form a chain as long as each commit still finds what it has checked.
-/
namespace OpenMinion.CheckpointChain
open InterleavedThreads IsoTimestamps JsonValues KeyedTables StatementPrograms TaskPrograms TaskRecords ThreadedPrograms
  TransitionRuns

def lastCommitted (db₀ : LifecycleDb) (commits : List CheckpointCommit) (taskId : String) : Option String :=
  commits.foldl (fun last commit => if commit.taskId = taskId then some commit.checkpointId else last) (db₀.latestCheckpointId taskId)

/-- Every commit names the one before it. -/
inductive Linked (db₀ : LifecycleDb) : List CheckpointCommit → Prop where
  | nil : Linked db₀ []
  | snoc {commits : List CheckpointCommit} (linked : Linked db₀ commits) (commit : CheckpointCommit)
      (names : commit.expectedCheckpointId = lastCommitted db₀ commits commit.taskId) : Linked db₀ (commits ++ [commit])

def SameCheckpoint (a b : CheckpointCommit) : Prop := a.taskId = b.taskId ∧ a.checkpointId = b.checkpointId

/-- The claim is stored for its owner and has not expired. -/
def ClaimLive (db : LifecycleDb) (claim : ProjectCycleClaim) (now : DateTime) : Prop :=
  ∃ row ∈ db.claim claim.taskId, ClaimMatches row claim ∧ now < row.expiresAt

def committedRow (claim : ProjectCycleClaim) (checkpointId : String) (state : Dict) (committedAt : DateTime) : TaskCheckpoint :=
  ⟨claim.taskId, checkpointId, toIsoUtc committedAt, state⟩

/-- A checkpoint is committed under a live claim, names the checkpoint committed before it, and is the latest one. -/
def ExtendsChain (db₀ : LifecycleDb) (s : Shared) (env : Env) : Stmt → Prop
  | .commitCheckpoint claim checkpointId state committedAt =>
    ∀ db, env.fails = false → s.db.commitCheckpoint claim checkpointId state committedAt = some db →
      ClaimLive s.db claim env.now ∧ claim.expectedCheckpointId = lastCommitted db₀ s.commits claim.taskId ∧
        db.latestCheckpointId claim.taskId = some checkpointId
  | _ => True

/-- A commit that writes still finds what it has checked, and its checkpoint sorts after the latest one. -/
def FindsWhatItChecked (s : Shared) (env : Env) : Stmt → Prop
  | .commitCheckpoint claim checkpointId state committedAt =>
    env.fails = false → (s.db.commitCheckpoint claim checkpointId state committedAt).isSome = true →
      ClaimLive s.db claim env.now ∧ s.db.latestCheckpointId claim.taskId = claim.expectedCheckpointId ∧
        ∀ latest ∈ s.db.latestCheckpoint claim.taskId,
          latest.sortKey < (committedRow claim checkpointId state committedAt).sortKey
  | _ => True

/-- The commits are linked, and the database shows the last of them. -/
structure Chain (db₀ : LifecycleDb) (s : Shared) : Prop where
  linked : Linked db₀ s.commits
  latest : ∀ taskId, s.db.latestCheckpointId taskId = lastCommitted db₀ s.commits taskId
  kept : ∀ row ∈ db₀.checkpoints, row ∈ s.db.checkpoints
  stored : ∀ commit ∈ s.commits, ∃ row ∈ s.db.checkpoints, row.taskId = commit.taskId ∧ row.checkpointId = commit.checkpointId
  /-- No checkpoint is committed twice. -/
  distinct : s.commits.Pairwise fun a b => ¬ SameCheckpoint a b
  fresh : ∀ commit ∈ s.commits, ∀ row ∈ db₀.checkpoints, row.taskId = commit.taskId → row.checkpointId ≠ commit.checkpointId

section Lists

variable {db₀ : LifecycleDb} {commits : List CheckpointCommit}

theorem lastCommitted_append (commits : List CheckpointCommit) (commit : CheckpointCommit) (taskId : String) :
    lastCommitted db₀ (commits ++ [commit]) taskId =
      if commit.taskId = taskId then some commit.checkpointId else lastCommitted db₀ commits taskId := by
  rw [lastCommitted, List.foldl_append]
  rfl

theorem lastCommitted_mem (commits : List CheckpointCommit) (taskId : String) :
    lastCommitted db₀ commits taskId = db₀.latestCheckpointId taskId ∨
      ∃ commit ∈ commits, commit.taskId = taskId ∧ lastCommitted db₀ commits taskId = some commit.checkpointId := by
  induction commits using List.reverseRecOn with
  | nil => exact .inl rfl
  | append_singleton commits commit ih =>
    rw [lastCommitted_append]
    by_cases htask : commit.taskId = taskId
    · rw [if_pos htask]
      exact .inr ⟨commit, List.mem_append_right _ (List.mem_singleton_self commit), htask, rfl⟩
    · rw [if_neg htask]
      rcases ih with hinitial | ⟨other, hother, hsame, hlast⟩
      · exact .inl hinitial
      · exact .inr ⟨other, List.mem_append_left _ hother, hsame, hlast⟩

theorem Linked.names (h : Linked db₀ commits) {earlier later : List CheckpointCommit} {commit : CheckpointCommit}
    (hcommits : commits = earlier ++ commit :: later) : commit.expectedCheckpointId = lastCommitted db₀ earlier commit.taskId := by
  induction h generalizing later with
  | nil => simp at hcommits
  | snoc linked last names ih =>
    induction later using List.reverseRecOn with
    | nil =>
      obtain ⟨rfl, hlast⟩ := List.append_inj' hcommits rfl
      obtain rfl := (List.cons.inj hlast).1
      exact names
    | append_singleton later other _ =>
      rw [← List.cons_append, ← List.append_assoc] at hcommits
      obtain ⟨hinit, -⟩ := List.append_inj' hcommits rfl
      exact ih hinit

/-- No two linked commits of a task name the same checkpoint, when each checkpoint is committed once. -/
theorem Linked.distinct_predecessors (h : Linked db₀ commits) (hdistinct : commits.Pairwise fun a b => ¬ SameCheckpoint a b)
    (hfresh : ∀ commit ∈ commits, db₀.latestCheckpointId commit.taskId ≠ some commit.checkpointId)
    {earlier middle later : List CheckpointCommit} {a b : CheckpointCommit} (hcommits : commits = earlier ++ a :: middle ++ b :: later)
    (htask : a.taskId = b.taskId) : a.expectedCheckpointId ≠ b.expectedCheckpointId := by
  have ha : a.expectedCheckpointId = lastCommitted db₀ earlier a.taskId :=
    h.names (hcommits.trans (List.append_assoc earlier (a :: middle) (b :: later)))
  have hb := h.names hcommits
  -- The predecessor of the second commit is the first one, or one between them.
  have hpred : ∃ commit ∈ a :: middle, commit.taskId = a.taskId ∧ b.expectedCheckpointId = some commit.checkpointId := by
    rw [hb, ← htask]
    clear hb hcommits
    induction middle using List.reverseRecOn with
    | nil => exact ⟨a, List.mem_singleton_self a, rfl, by rw [lastCommitted_append, if_pos rfl]⟩
    | append_singleton middle commit ih =>
      rw [← List.cons_append, ← List.append_assoc, lastCommitted_append]
      by_cases hsame : commit.taskId = a.taskId
      · rw [if_pos hsame]
        exact ⟨commit, List.mem_append_right _ (List.mem_singleton_self commit), hsame, rfl⟩
      · rw [if_neg hsame]
        obtain ⟨other, hother, hrest⟩ := ih
        exact ⟨other, List.mem_append_left _ hother, hrest⟩
  obtain ⟨commit, hmem, hcommit, hexpected⟩ := hpred
  rw [ha, hexpected]
  have hin : commit ∈ commits := by
    rw [hcommits]
    exact List.mem_append_left _ (List.mem_append_right _ hmem)
  rcases @lastCommitted_mem db₀ earlier a.taskId with hinitial | ⟨other, hother, hsame, hlast⟩
  · rw [hinitial, ← hcommit]
    exact hfresh commit hin
  · rw [hlast]
    intro heq
    rw [hcommits, List.append_assoc] at hdistinct
    exact (List.pairwise_append.mp hdistinct).2.2 other hother commit (List.mem_append_left _ hmem)
      ⟨hsame.trans hcommit.symm, Option.some.inj heq⟩

end Lists

section Statements

variable {db db' : LifecycleDb} {claim : ProjectCycleClaim} {checkpointId : String} {state : Dict} {committedAt : DateTime}

theorem commitCheckpoint_spec (h : db.commitCheckpoint claim checkpointId state committedAt = some db') :
    db'.checkpoints = db.checkpoints ++ [committedRow claim checkpointId state committedAt] ∧
      ∀ row ∈ db.checkpoints, row.taskId = claim.taskId → row.checkpointId ≠ checkpointId := by
  rw [LifecycleDb.commitCheckpoint] at h
  split at h
  · cases h
  · next hfree =>
    obtain ⟨row, -, rfl⟩ := Option.map_eq_some_iff.mp h
    refine ⟨rfl, fun other hother htask hid => hfree ?_⟩
    rw [List.any_eq_true]
    exact ⟨other, hother, by simp [htask, hid]⟩

theorem latestCheckpoint_commit (h : db.commitCheckpoint claim checkpointId state committedAt = some db') :
    db'.latestCheckpoint claim.taskId = match db.latestCheckpoint claim.taskId with
      | none => some (committedRow claim checkpointId state committedAt)
      | some latest => if latest.sortKey < (committedRow claim checkpointId state committedAt).sortKey
          then some (committedRow claim checkpointId state committedAt) else some latest := by
  have hself : [committedRow claim checkpointId state committedAt].filter (·.taskId = claim.taskId) =
      [committedRow claim checkpointId state committedAt] := by simp [committedRow]
  rw [LifecycleDb.latestCheckpoint, (commitCheckpoint_spec h).1, List.filter_append, hself, TaskCheckpoint.newest_append]
  rfl

theorem latestCheckpoint_mem {taskId : String} {latest : TaskCheckpoint} (h : db.latestCheckpoint taskId = some latest) :
    latest ∈ db.checkpoints ∧ latest.taskId = taskId := by
  have hspec := TaskCheckpoint.newest_spec (db.checkpoints.filter (·.taskId = taskId))
  rw [← LifecycleDb.latestCheckpoint, h] at hspec
  simpa using hspec.1

theorem latestCheckpointId_commit_iff (h : db.commitCheckpoint claim checkpointId state committedAt = some db') :
    db'.latestCheckpointId claim.taskId = some checkpointId ↔
      ∀ latest ∈ db.latestCheckpoint claim.taskId,
        latest.sortKey < (committedRow claim checkpointId state committedAt).sortKey := by
  rw [LifecycleDb.latestCheckpointId, latestCheckpoint_commit h]
  cases hlatest : db.latestCheckpoint claim.taskId with
  | none => simp [committedRow]
  | some latest =>
    obtain ⟨hmem, htask⟩ := latestCheckpoint_mem hlatest
    have hne := (commitCheckpoint_spec h).2 latest hmem htask
    by_cases hlt : latest.sortKey < (committedRow claim checkpointId state committedAt).sortKey
    · dsimp only
      rw [if_pos hlt]
      refine ⟨fun _ other hother => ?_, fun _ => rfl⟩
      rw [← Option.some.inj hother]
      exact hlt
    · simp [hlt, hne]

theorem latestCheckpointId_commit_of_ne (h : db.commitCheckpoint claim checkpointId state committedAt = some db') {taskId : String}
    (hne : claim.taskId ≠ taskId) : db'.latestCheckpointId taskId = db.latestCheckpointId taskId := by
  have hother : [committedRow claim checkpointId state committedAt].filter (·.taskId = taskId) = [] := by simp [committedRow, hne]
  rw [LifecycleDb.latestCheckpointId, LifecycleDb.latestCheckpoint, (commitCheckpoint_spec h).1, List.filter_append, hother,
    List.append_nil, LifecycleDb.latestCheckpointId, LifecycleDb.latestCheckpoint]

theorem checkpoints_writeDb {env : Env} {c : Stmt} (hc : c.commits = []) (h : c.writeDb env db = some db') :
    db'.checkpoints = db.checkpoints := by
  cases c with
  | create record =>
    rw [Stmt.writeDb, LifecycleDb.create] at h
    split at h
    · cases h
    · cases h
      rfl
  | transition record toState failureReason =>
    cases h
    rw [LifecycleDb.transition]
    split <;> rfl
  | mutateMetadata taskId mutate =>
    obtain ⟨row, -, hrow⟩ := Option.bind_eq_some_iff.mp h
    obtain ⟨metadata, -, rfl⟩ := Option.map_eq_some_iff.mp hrow
    rfl
  | commitCheckpoint => cases hc
  | recordScheduledOutcome | updateMetadata | putClaim | expireClaim | look | setCronJobEnabled | replaceCronJobPayload
  | deleteCronJob | cronChange =>
    cases h
    rfl

end Statements

section Runs

variable {db₀ : LifecycleDb} {s : Shared}

theorem chain_initial (db₀ : LifecycleDb) (jobs : List CronJob) : Chain db₀ ⟨db₀, jobs, [], []⟩ where
  linked := .nil
  latest _ := rfl
  kept _ h := h
  stored _ h := absurd h List.not_mem_nil
  distinct := .nil
  fresh _ h := absurd h List.not_mem_nil

theorem Chain.extends_iff (h : Chain db₀ s) (env : Env) (c : Stmt) : ExtendsChain db₀ s env c ↔ FindsWhatItChecked s env c := by
  cases c with
  | commitCheckpoint claim checkpointId state committedAt =>
    rw [ExtendsChain, FindsWhatItChecked]
    cases hcommit : s.db.commitCheckpoint claim checkpointId state committedAt with
    | none => exact ⟨fun _ _ hsome => absurd hsome (by decide), fun _ db _ hnone => (nomatch hnone)⟩
    | some db =>
      have hlatest := latestCheckpointId_commit_iff hcommit
      constructor
      · intro hext hfails _
        obtain ⟨hlive, hnames, hlast⟩ := hext db hfails rfl
        exact ⟨hlive, (h.latest _).trans hnames.symm, hlatest.mp hlast⟩
      · rintro hfinds db' hfails hsome
        obtain ⟨hlive, hnames, hsorts⟩ := hfinds hfails rfl
        rw [← Option.some.inj hsome]
        exact ⟨hlive, hnames.symm.trans (h.latest _), hlatest.mpr hsorts⟩
  | _ => exact Iff.rfl

theorem Chain.commit (h : Chain db₀ s) {claim : ProjectCycleClaim} {checkpointId : String} {state : Dict} {committedAt : DateTime}
    {db : LifecycleDb} (hcommit : s.db.commitCheckpoint claim checkpointId state committedAt = some db)
    (hnames : s.db.latestCheckpointId claim.taskId = claim.expectedCheckpointId)
    (hsorts : ∀ latest ∈ s.db.latestCheckpoint claim.taskId,
      latest.sortKey < (committedRow claim checkpointId state committedAt).sortKey)
    (jobs : List CronJob) (changes : List MetadataChange) :
    Chain db₀ ⟨db, jobs, changes, s.commits ++ [⟨claim.taskId, checkpointId, claim.expectedCheckpointId⟩]⟩ := by
  obtain ⟨hcheckpoints, hfree⟩ := commitCheckpoint_spec hcommit
  have hmem : ∀ row, row ∈ db.checkpoints ↔ row ∈ s.db.checkpoints ∨ row = committedRow claim checkpointId state committedAt := by
    intro row
    rw [hcheckpoints, List.mem_append, List.mem_singleton]
  refine ⟨?_, ?_, ?_, ?_, ?_, ?_⟩
  · exact .snoc h.linked _ (hnames.symm.trans (h.latest _))
  · intro taskId
    rw [lastCommitted_append]
    by_cases htask : claim.taskId = taskId
    · rw [if_pos htask, ← htask]
      exact (latestCheckpointId_commit_iff hcommit).mpr hsorts
    · rw [if_neg htask, latestCheckpointId_commit_of_ne hcommit htask]
      exact h.latest taskId
  · exact fun row hrow => (hmem row).mpr (.inl (h.kept row hrow))
  · intro commit hcommitted
    rcases List.mem_append.mp hcommitted with hold | hnew
    · obtain ⟨row, hrow, hkey⟩ := h.stored commit hold
      exact ⟨row, (hmem row).mpr (.inl hrow), hkey⟩
    · rw [List.mem_singleton.mp hnew]
      exact ⟨_, (hmem _).mpr (.inr rfl), rfl, rfl⟩
  · refine List.pairwise_append.mpr ⟨h.distinct, List.pairwise_singleton _ _, ?_⟩
    intro a ha b hb hsame
    rw [List.mem_singleton.mp hb] at hsame
    obtain ⟨row, hrow, htask, hid⟩ := h.stored a ha
    exact hfree row hrow (htask.trans hsame.1) (hid.trans hsame.2)
  · intro commit hcommitted row hrow htask
    rcases List.mem_append.mp hcommitted with hold | hnew
    · exact h.fresh commit hold row hrow htask
    · rw [List.mem_singleton.mp hnew] at htask ⊢
      exact hfree row (h.kept row hrow) htask

theorem Chain.exec (h : Chain db₀ s) (env : Env) (c : Stmt) (hfinds : FindsWhatItChecked s env c) :
    Chain db₀ (TaskPrograms.exec s env c).1 := by
  rw [TaskPrograms.exec]
  cases hfails : env.fails with
  | true => exact h
  | false =>
    rw [if_neg Bool.false_ne_true]
    cases hwrite : c.writeDb env s.db with
    | none => exact h
    | some db =>
      by_cases hcommits : c.commits = []
      · -- The rows of the checkpoints and the commits are the same.
        have hcheckpoints := checkpoints_writeDb hcommits hwrite
        rw [hcommits, List.append_nil]
        refine ⟨h.linked, fun taskId => ?_, ?_, ?_, h.distinct, h.fresh⟩
        · rw [LifecycleDb.latestCheckpointId, LifecycleDb.latestCheckpoint, hcheckpoints]
          exact h.latest taskId
        · exact fun row hrow => hcheckpoints ▸ h.kept row hrow
        · exact fun commit hcommit => hcheckpoints ▸ h.stored commit hcommit
      · cases c with
        | commitCheckpoint claim checkpointId state committedAt =>
          have hsome : (s.db.commitCheckpoint claim checkpointId state committedAt).isSome = true :=
            Option.isSome_iff_exists.mpr ⟨db, hwrite⟩
          obtain ⟨-, hnames, hsorts⟩ := hfinds hfails hsome
          exact h.commit hwrite hnames hsorts _ _
        | _ => exact absurd rfl hcommits

theorem Chain.predecessors (h : Chain db₀ s) :
    (∀ (earlier : List CheckpointCommit) (commit : CheckpointCommit) (later : List CheckpointCommit), s.commits = earlier ++ commit :: later →
      commit.expectedCheckpointId = lastCommitted db₀ earlier commit.taskId) ∧
    (∀ (earlier : List CheckpointCommit) (a : CheckpointCommit) (middle : List CheckpointCommit) (b : CheckpointCommit) (later : List CheckpointCommit),
      s.commits = earlier ++ a :: middle ++ b :: later → a.taskId = b.taskId →
      a.expectedCheckpointId ≠ b.expectedCheckpointId) := by
  refine ⟨fun earlier commit later => h.linked.names, fun earlier a middle b later => h.linked.distinct_predecessors h.distinct ?_⟩
  intro commit hcommit heq
  obtain ⟨row, hrow, hid⟩ := Option.map_eq_some_iff.mp heq
  obtain ⟨hmem, htask⟩ := latestCheckpoint_mem hrow
  exact h.fresh commit hcommit row hmem htask hid

variable (lib : TaskLibrary) {Thread : Type} [DecidableEq Thread]

/-- **Checkpoints form one chain while commits find what they have checked.** -/
theorem checkpoints_chain_iff (db : LifecycleDb) (jobs : List CronJob) (actions : List (Action Thread Op Env)) :
    (Guarded (threads lib).step (AtStatement (ExtendsChain db)) (initial Thread db jobs) actions ↔
      Guarded (threads lib).step (AtStatement FindsWhatItChecked) (initial Thread db jobs) actions) ∧
    (Guarded (threads lib).step (AtStatement FindsWhatItChecked) (initial Thread db jobs) actions →
      let s := (run (threads lib).step (initial Thread db jobs) actions).shared
      (∀ (earlier : List CheckpointCommit) (commit : CheckpointCommit) (later : List CheckpointCommit), s.commits = earlier ++ commit :: later →
        commit.expectedCheckpointId = lastCommitted db earlier commit.taskId) ∧
      (∀ (earlier : List CheckpointCommit) (a : CheckpointCommit) (middle : List CheckpointCommit) (b : CheckpointCommit) (later : List CheckpointCommit),
        s.commits = earlier ++ a :: middle ++ b :: later → a.taskId = b.taskId →
        a.expectedCheckpointId ≠ b.expectedCheckpointId) ∧
      ∀ taskId, s.db.latestCheckpointId taskId = lastCommitted db s.commits taskId) := by
  have hinitial : Chain db (initial Thread db jobs).shared := chain_initial db jobs
  constructor
  · refine guarded_atStatement_iff (I := Chain db) ?_ (fun s env c h => h.extends_iff env c) hinitial actions
    exact fun s env c h hok => h.exec env c ((h.extends_iff env c).mp hok)
  · intro h
    have hchain : Chain db (run (threads lib).step (initial Thread db jobs) actions).shared :=
      shared_run (I := Chain db) (fun s env c h hok => h.exec env c hok) hinitial h
    exact ⟨hchain.predecessors.1, hchain.predecessors.2, hchain.latest⟩

def readings (actions : List (Action Thread Op Env)) : List DateTime :=
  actions.filterMap fun action => match action with
    | .start _ _ => none
    | .advance _ env => some env.now

def claimOf (ownerId : String) (fenceToken : ℤ) : ProjectCycleClaim := ⟨"task", ownerId, fenceToken, none, ⟨0, zero_lt_endOfTime⟩⟩

def firstOwner : List (Action Bool Op Env) :=
  Action.start false (Op.acquireProjectCycleClaim "task" "first" none 1) :: List.replicate 4 (Action.advance false (Env.atMicros 0 zero_lt_endOfTime)) ++
    Action.start false (Op.commitProjectCycleCheckpoint (claimOf "first" 1) "late" []) :: List.replicate 3 (Action.advance false (Env.atMicros 0 zero_lt_endOfTime))

def secondOwner : List (Action Bool Op Env) :=
  Action.start true (Op.acquireProjectCycleClaim "task" "second" none 1) :: List.replicate 4 (Action.advance true (Env.atMicros 2000000)) ++
    Action.start true (Op.commitProjectCycleCheckpoint (claimOf "second" 2) "early" []) :: List.replicate 4 (Action.advance true (Env.atMicros 2000000))

/-- Then the first owner writes, and both checkpoints are the first ones of the task. -/
theorem taken_over_claim_commits :
    ¬ ∀ actions : List (Action Bool Op Env), (readings actions).Pairwise (· ≤ ·) →
      ∀ (earlier : List CheckpointCommit) (a : CheckpointCommit) (middle : List CheckpointCommit) (b : CheckpointCommit) (later : List CheckpointCommit),
        (run (threads .plain).step (initial Bool { tasks := [activeTask] } []) actions).shared.commits =
          earlier ++ a :: middle ++ b :: later → a.taskId = b.taskId → a.expectedCheckpointId ≠ b.expectedCheckpointId := by
  intro h
  have hcommits : (run (threads .plain).step (initial Bool { tasks := [activeTask] } [])
      (firstOwner ++ secondOwner ++ [Action.advance false (Env.atMicros 2000000)])).shared.commits =
      [⟨"task", "early", none⟩, ⟨"task", "late", none⟩] := by decide +kernel
  have hreadings : (readings (firstOwner ++ secondOwner ++ [Action.advance false (Env.atMicros 2000000)])).Pairwise (· ≤ ·) := by
    decide +kernel
  exact h _ hreadings [] ⟨"task", "early", none⟩ [] ⟨"task", "late", none⟩ [] hcommits rfl rfl

end Runs

end OpenMinion.CheckpointChain
