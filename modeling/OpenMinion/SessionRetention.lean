import OpenMinion.FencedSessionWrites
import OpenMinion.SessionReferences

/-!
# Session retention

The dry run that lists the expired sessions with what blocks their purge, and the purge, a transaction per session. It
comes to its end exactly when only purged sessions refer to rows of a candidate.
-/
namespace OpenMinion.SessionRetention
open FencedSessionWrites IsoTimestamps JsonValues KeyedTables PythonText ReferentialDeletes SessionEventWrites
open SessionReferences SessionTables

structure RetentionPolicy where
  inactivityTtlSeconds : ℤ := 30 * 24 * 60 * 60
  closedRetentionSeconds : ℤ := 7 * 24 * 60 * 60
  deriving DecidableEq

inductive RetentionReason where
  | closedRetentionElapsed
  | inactivityTtlElapsed
  deriving DecidableEq

inductive Blocker where
  | retentionHold
  | activeTurnLease
  | activeShare
  deriving DecidableEq

structure RetentionCandidate where
  sessionId : String
  reason : RetentionReason
  updatedAt : DateTime
  status : String
  blockers : List Blocker
  deriving DecidableEq

structure RetentionPlan where
  candidates : List RetentionCandidate
  policy : RetentionPolicy
  snapshotHash : String
  createdAt : DateTime
  deriving DecidableEq

structure RetentionEnv where
  /-- `_snapshot_hash`. -/
  snapshotHash : List RetentionCandidate → String
  /-- The hook `purge_session_records`; without one it does nothing. -/
  purgeSessionRecords : String → Except StoreError Unit
  removeArtifactReferences : String → Except StoreError Unit

/-- `age >= timedelta(seconds=s)`, for an age in microseconds. -/
def ageAtLeast (age seconds : ℤ) : Except StoreError Bool :=
  if -(86400 * 999999999) ≤ seconds ∧ seconds < 86400 * 1000000000 then .ok (seconds * 1000000 ≤ age)
  else .error .overflowError

def retentionReason (status : String) (updatedAt : DateTime) (policy : RetentionPolicy) (now : DateTime) :
    Except StoreError (Option RetentionReason) := do
  let age : ℤ := now.micros - updatedAt.micros
  let closed ← if status ∈ ["closed", "archived"] then ageAtLeast age policy.closedRetentionSeconds else .ok false
  if closed then return some .closedRetentionElapsed
  let inactive ← ageAtLeast age policy.inactivityTtlSeconds
  return if inactive then some .inactivityTtlElapsed else none

section Blockers

variable (db : SessionDb) (sessionId : String)

def hasHold : Bool := db.retentionHolds.any fun r => r.sessionId = sessionId && r.releasedAt = none

def hasActiveLease (now : DateTime) : Bool :=
  db.turnLeases.any fun r => r.sessionId = sessionId && r.releasedAt = none && toIsoUtc now < toIsoUtc r.expiresAt

def hasActiveShare (now : DateTime) : Bool :=
  db.sessionShares.any fun r => r.sessionId = sessionId && r.revokedAt = none && toIsoUtc now < toIsoUtc r.expiresAt

/-- The query of `_blockers` for one kind of blocker. -/
def Blocker.present (now : DateTime) : Blocker → Bool
  | .retentionHold => hasHold db sessionId
  | .activeTurnLease => hasActiveLease db sessionId now
  | .activeShare => hasActiveShare db sessionId now

def blockers (now : DateTime) : List Blocker :=
  [.retentionHold, .activeTurnLease, .activeShare].filter fun b => b.present db sessionId now

end Blockers

/-- `SELECT .. FROM sessions ORDER BY updated_at`. -/
def sessionsByUpdate (db : SessionDb) : List SessionRow :=
  db.sessions.insertionSort fun a b => toIsoUtc a.updatedAt ≤ toIsoUtc b.updatedAt

def candidateRow (db : SessionDb) (policy : RetentionPolicy) (now : DateTime) (row : SessionRow) :
    Except StoreError (Option RetentionCandidate) := do
  let reason ← retentionReason row.status row.updatedAt policy now
  return reason.map fun reason => ⟨row.sessionId, reason, row.updatedAt, row.status, blockers db row.sessionId now⟩

def candidateRows (db : SessionDb) (policy : RetentionPolicy) (now : DateTime) :
    Except StoreError (List RetentionCandidate) :=
  (sessionsByUpdate db).filterMapM (candidateRow db policy now)

def dryRun (env : RetentionEnv) (db : SessionDb) (policy : RetentionPolicy) (now : DateTime) :
    Except StoreError RetentionPlan := do
  let candidates ← candidateRows db policy now
  return ⟨candidates, policy, env.snapshotHash candidates, now⟩

def deleteFromTable (sessionId : String) (db : SessionDb) (table : Table) : Except StoreError (SessionDb × ℕ) :=
  (sessionSchema.deleteRows .integrityError sessionId db table).map fun db' =>
    (db', (rowSessions db table).count sessionId)

/-- `_purge_session`: one transaction. -/
def purgeSession (db : SessionDb) (sessionId : String) : Except StoreError (SessionDb × ℕ) :=
  purgeTables.foldlM (fun (db, total) table => do
    let (db', count) ← deleteFromTable sessionId db table
    return (db', total + count)) (db, 0)

/-- The loop of `purge`: the candidates one by one, until one of them raises. -/
def purgeCandidates (env : RetentionEnv) : SessionDb → List RetentionCandidate →
    SessionDb × Except StoreError (List (String × ℕ))
  | db, [] => (db, .ok [])
  | db, candidate :: rest =>
    match env.purgeSessionRecords candidate.sessionId with
    | .error e => (db, .error e)
    | .ok _ =>
      match purgeSession db candidate.sessionId with
      | .error e => (db, .error e)
      | .ok (db', count) =>
        match env.removeArtifactReferences candidate.sessionId with
        | .error e => (db', .error e)
        | .ok _ =>
          let (db'', deleted) := purgeCandidates env db' rest
          (db'', deleted.map fun rows => (candidate.sessionId, count) :: rows)

structure PurgeReport where
  purgedSessionCount : ℕ
  deletedRows : List (String × ℕ)
  overrideBlockers : Bool
  deriving DecidableEq

def purge (env : RetentionEnv) (db : SessionDb) (plan : RetentionPlan) (overrideBlockers : Bool) (now : DateTime) :
    SessionDb × Except StoreError PurgeReport :=
  match dryRun env db plan.policy now with
  | .error e => (db, .error e)
  | .ok fresh =>
    if fresh.snapshotHash ≠ plan.snapshotHash then
      (db, .error (.sessionRetention "SESSION_RETENTION_SNAPSHOT_CHANGED" "retention candidate snapshot changed"))
    else if (fresh.candidates.any fun c => !c.blockers.isEmpty) && !overrideBlockers then
      (db, .error (.sessionRetention "SESSION_RETENTION_BLOCKED" "retention purge has active blockers"))
    else
      let (db', deleted) := purgeCandidates env db fresh.candidates
      (db', deleted.map fun rows => ⟨fresh.candidates.length, rows, overrideBlockers⟩)

/-- The statements of `_purge_session`, without the count. -/
theorem purgeSession_map_fst (db : SessionDb) (sessionId : String) :
    (purgeSession db sessionId).map Prod.fst =
      purgeTables.foldlM (sessionSchema.deleteRows StoreError.integrityError sessionId) db := by
  rw [purgeSession]
  generalize (0 : ℕ) = total
  induction purgeTables generalizing db total with
  | nil => rfl
  | cons table tables ih =>
    rw [List.foldlM_cons, List.foldlM_cons]
    cases h : sessionSchema.deleteRows StoreError.integrityError sessionId db table with
    | error e => simp [deleteFromTable, h, Except.map, bind, Except.bind]
    | ok db' =>
      simp only [deleteFromTable, h, Except.map, bind, Except.bind]
      exact ih db' _

section Purge

variable {env : RetentionEnv} {db : SessionDb}

theorem purgeSession_ok (hkeys : sessionSchema.UniqueKeys db) {sessionId : String}
    (hfree : ∀ fk ∈ sessionSchema.foreignKeys, ∀ a, sessionSchema.Refers db fk a sessionId → a = sessionId) :
    ∃ count, purgeSession db sessionId = .ok (sessionSchema.deleted db sessionId purgeTables, count) := by
  have hok := (purgeSession_map_fst db sessionId).trans
    (Schema.deleteTables_ok StoreError.integrityError purgeTables_childrenFirst hkeys hfree)
  obtain ⟨⟨db', count⟩, hpurge, rfl⟩ := map_eq_ok.mp hok
  exact ⟨count, hpurge⟩

theorem purgeSession_free (hkeys : sessionSchema.UniqueKeys db) {sessionId : String} {r : SessionDb × ℕ}
    (h : purgeSession db sessionId = .ok r) {fk : ForeignKey} (hfk : fk ∈ sessionSchema.foreignKeys) {a : String}
    (hrefers : sessionSchema.Refers db fk a sessionId) : a = sessionId := by
  by_contra hne
  have herror := (purgeSession_map_fst db sessionId).trans
    (Schema.deleteTables_error StoreError.integrityError purgeTables_childrenFirst hkeys hfk hne hrefers)
  rw [h] at herror
  cases herror

def HooksAccept (env : RetentionEnv) (sessions : List String) : Prop :=
  ∀ s ∈ sessions, env.purgeSessionRecords s = .ok () ∧ env.removeArtifactReferences s = .ok ()

/-- A first candidate that was purged: the hooks accept it, no other session refers to it,
and the loop goes on without it. -/
theorem purgeCandidates_cons (hkeys : sessionSchema.UniqueKeys db) {c : RetentionCandidate}
    {rest : List RetentionCandidate} {rows : List (String × ℕ)}
    (h : (purgeCandidates env db (c :: rest)).2 = .ok rows) :
    (env.purgeSessionRecords c.sessionId = .ok () ∧ env.removeArtifactReferences c.sessionId = .ok ()) ∧
    (∀ fk ∈ sessionSchema.foreignKeys, ∀ a, sessionSchema.Refers db fk a c.sessionId → a = c.sessionId) ∧
    (purgeCandidates env db (c :: rest)).1 =
      (purgeCandidates env (sessionSchema.deleted db c.sessionId purgeTables) rest).1 ∧
    ∃ rows', (purgeCandidates env (sessionSchema.deleted db c.sessionId purgeTables) rest).2 = .ok rows' := by
  rw [purgeCandidates] at h ⊢
  cases hrecords : env.purgeSessionRecords c.sessionId with
  | error e => simp [hrecords] at h
  | ok _ =>
    cases hpurge : purgeSession db c.sessionId with
    | error e => simp [hrecords, hpurge] at h
    | ok r =>
      have hfree : ∀ fk ∈ sessionSchema.foreignKeys, ∀ a,
          sessionSchema.Refers db fk a c.sessionId → a = c.sessionId :=
        fun _ hfk _ hrefers => purgeSession_free hkeys hpurge hfk hrefers
      obtain ⟨count, hdeleted⟩ := purgeSession_ok hkeys hfree
      obtain rfl := Except.ok.inj (hpurge.symm.trans hdeleted)
      cases hartifacts : env.removeArtifactReferences c.sessionId with
      | error e => simp [hrecords, hpurge, hartifacts] at h
      | ok _ =>
        simp only [hrecords, hpurge, hartifacts] at h
        obtain ⟨rows', hrows', -⟩ := map_eq_ok.mp h
        exact ⟨⟨rfl, rfl⟩, hfree, rfl, rows', hrows'⟩

/-- The loop of `purge` ends without an error exactly when every candidate can be deleted in
its turn. -/
theorem purgeCandidates_ok_iff (hkeys : sessionSchema.UniqueKeys db) (candidates : List RetentionCandidate) :
    (∃ rows, (purgeCandidates env db candidates).2 = .ok rows) ↔
      HooksAccept env (candidates.map RetentionCandidate.sessionId) ∧
        sessionSchema.FreeInOrder db (candidates.map RetentionCandidate.sessionId) := by
  induction candidates generalizing db with
  | nil => exact ⟨fun _ => ⟨fun s hs => (List.not_mem_nil hs).elim, Schema.freeInOrder_nil⟩, fun _ => ⟨[], rfl⟩⟩
  | cons c rest ih =>
    have hrest := @ih (sessionSchema.deleted db c.sessionId purgeTables) hkeys.deleted
    rw [List.map_cons, purgeTables_childrenFirst.freeInOrder_cons, HooksAccept, List.forall_mem_cons]
    constructor
    · rintro ⟨rows, hok⟩
      obtain ⟨haccepts, hfree, -, hleft⟩ := purgeCandidates_cons hkeys hok
      obtain ⟨haccept, horder⟩ := hrest.mp hleft
      exact ⟨⟨haccepts, haccept⟩, hfree, horder⟩
    · rintro ⟨⟨⟨hrecords, hartifacts⟩, haccept⟩, hfree, horder⟩
      obtain ⟨count, hdeleted⟩ := purgeSession_ok hkeys hfree
      obtain ⟨rows, hrows⟩ := hrest.mpr ⟨haccept, horder⟩
      simp only [purgeCandidates, hrecords, hdeleted, hartifacts, hrows]
      exact ⟨_, rfl⟩

theorem rowsOf_purgeCandidates (hkeys : sessionSchema.UniqueKeys db) {candidates : List RetentionCandidate}
    {rows : List (String × ℕ)} (h : (purgeCandidates env db candidates).2 = .ok rows) (sid : String) :
    rowsOf (purgeCandidates env db candidates).1 sid =
      if sid ∈ candidates.map RetentionCandidate.sessionId then {} else rowsOf db sid := by
  induction candidates generalizing db rows with
  | nil => rfl
  | cons c rest ih =>
    obtain ⟨-, -, hleft, rows', hrows'⟩ := purgeCandidates_cons hkeys h
    rw [hleft, ih hkeys.deleted hrows', List.map_cons]
    by_cases hrest : sid ∈ rest.map RetentionCandidate.sessionId
    · rw [if_pos hrest, if_pos (List.mem_cons_of_mem _ hrest)]
    · rw [if_neg hrest]
      by_cases hsid : sid = c.sessionId
      · rw [hsid, if_pos List.mem_cons_self, rowsOf_deleted_self]
      · rw [if_neg (fun hmem => (List.mem_cons.mp hmem).elim hsid hrest), rowsOf_deleted_of_ne db hsid]

end Purge

/-- The purge has succeeded, nothing of these sessions is left, and the rows of all other
sessions are as they were. -/
structure PurgedExactly (db : SessionDb) (sessions : List String) (r : SessionDb × Except StoreError PurgeReport) :
    Prop where
  succeeds : ∃ report, r.2 = .ok report
  deleted : ∀ s ∈ sessions, rowsOf r.1 s = {}
  kept : ∀ s, s ∉ sessions → rowsOf r.1 s = rowsOf db s

/-- For a plan that is unchanged and that nothing blocks, the purge removes exactly the candidates if and only if the
hooks accept them and every reference to a row of a candidate is made by itself or by one purged before. -/
theorem retentionPurge_exact_iff (env : RetentionEnv) (db : SessionDb) (hkeys : sessionSchema.UniqueKeys db)
    (plan fresh : RetentionPlan) (overrideBlockers : Bool) (now : DateTime)
    (hfresh : dryRun env db plan.policy now = .ok fresh) (hhash : fresh.snapshotHash = plan.snapshotHash)
    (hblockers : ∀ c ∈ fresh.candidates, c.blockers = []) :
    PurgedExactly db (fresh.candidates.map RetentionCandidate.sessionId) (purge env db plan overrideBlockers now) ↔
      HooksAccept env (fresh.candidates.map RetentionCandidate.sessionId) ∧
        sessionSchema.FreeInOrder db (fresh.candidates.map RetentionCandidate.sessionId) := by
  have hnone : (fresh.candidates.any fun c => !c.blockers.isEmpty) = false := by
    rw [List.any_eq_false]
    intro c hc
    simp [hblockers c hc]
  have hpurge : purge env db plan overrideBlockers now = ((purgeCandidates env db fresh.candidates).1,
      (purgeCandidates env db fresh.candidates).2.map fun rows =>
        ⟨fresh.candidates.length, rows, overrideBlockers⟩) := by
    simp only [purge, hfresh, hhash, hnone, ne_eq, not_true_eq_false, if_false, Bool.false_and, Bool.false_eq_true]
  rw [← purgeCandidates_ok_iff hkeys, hpurge]
  constructor
  · rintro ⟨⟨report, hreport⟩, -, -⟩
    obtain ⟨rows, hrows, -⟩ := map_eq_ok.mp hreport
    exact ⟨rows, hrows⟩
  · rintro ⟨rows, hrows⟩
    have hleft := rowsOf_purgeCandidates hkeys hrows
    refine ⟨⟨_, map_eq_ok.mpr ⟨rows, hrows, rfl⟩⟩, ?_, ?_⟩
    · exact fun s hs => (hleft s).trans (if_pos hs)
    · exact fun s hs => (hleft s).trans (if_neg hs)

/-- 2026-08-27T10:00:00+00:00, forty days after `turnStart`. -/
def fortyDaysLater : DateTime := ⟨63923421600000000, by decide⟩

def sourcePacket : ContinuationPacket where
  packetId := "p1"
  sourceSessionId := "source"
  continuation := [("schema_version", .str "session_continuation.v1"), ("source_session_id", .str "source")]

/-- A session that has applied the continuation packet of another one; after forty days there
is one more turn, in one of them. -/
def linkedSessions (active : String) : SessionDb :=
  let db := committed {} (insertSession {} { sessionId := some "source", freshId := "", now := turnStart })
  let db := committed db (insertSession db { sessionId := some "target", freshId := "", now := turnStart })
  let db := committed db (appendEvent asciiRuntime db
    { sessionId := "source", eventType := some "session.continuation.packet_created",
      payload := sourcePacket.continuation, freshId := "p1", now := turnStart })
  let db := committed db (appendEvent asciiRuntime db (sourcePacket.appliedEvent "target" "a1" turnStart))
  committed db (appendTurn asciiRuntime db { lateTurn with sessionId := active, now := fortyDaysLater })

def plainRetentionEnv : RetentionEnv where
  snapshotHash candidates := " ".intercalate (candidates.map RetentionCandidate.sessionId)
  purgeSessionRecords _ := .ok ()
  removeArtifactReferences _ := .ok ()

def inactivePlan (sessionId : String) : RetentionPlan where
  candidates := [⟨sessionId, .inactivityTtlElapsed, turnStart, "active", []⟩]
  policy := {}
  snapshotHash := sessionId
  createdAt := fortyDaysLater

/-- The target of the continuation expires first. -/
theorem retentionPurge_exact_expiredTarget :
    PurgedExactly (linkedSessions "source") ["target"]
      (purge plainRetentionEnv (linkedSessions "source") (inactivePlan "target") false fortyDaysLater) := by
  have hkeys : sessionSchema.UniqueKeys (linkedSessions "source") := by
    change ∀ fk ∈ ForeignKey.all, ((keys (linkedSessions "source") fk).map Prod.fst).Nodup
    decide +kernel
  have hfree : sessionSchema.FreeInOrder (linkedSessions "source") ["target"] := by
    rw [purgeTables_childrenFirst.freeInOrder_cons]
    refine ⟨?_, Schema.freeInOrder_nil⟩
    have hrefs : ∀ fk ∈ ForeignKey.all, ∀ r ∈ references (linkedSessions "source") fk,
        (r.2, "target") ∈ keys (linkedSessions "source") fk → r.1 = "target" := by decide +kernel
    rintro fk hfk a ⟨k, hr, hk⟩
    exact hrefs fk hfk (a, k) hr hk
  exact (retentionPurge_exact_iff plainRetentionEnv (linkedSessions "source") hkeys (inactivePlan "target")
    (inactivePlan "target") false fortyDaysLater (by decide +kernel) rfl (by decide)).mpr
    ⟨fun _ _ => ⟨rfl, rfl⟩, hfree⟩

/-- The source of the continuation expires first: the plan is unchanged and nothing blocks it,
and the applied event of the target makes the purge fail. -/
theorem retentionPurge_fails_expiredSource :
    dryRun plainRetentionEnv (linkedSessions "target") {} fortyDaysLater = .ok (inactivePlan "source") ∧
    (purge plainRetentionEnv (linkedSessions "target") (inactivePlan "source") false fortyDaysLater).2 =
      .error .integrityError ∧
    ¬ PurgedExactly (linkedSessions "target") ["source"]
      (purge plainRetentionEnv (linkedSessions "target") (inactivePlan "source") false fortyDaysLater) := by
  have herror : (purge plainRetentionEnv (linkedSessions "target") (inactivePlan "source") false fortyDaysLater).2 =
      .error .integrityError := by decide +kernel
  refine ⟨by decide +kernel, herror, fun hpurged => ?_⟩
  obtain ⟨report, hreport⟩ := hpurged.succeeds
  rw [herror] at hreport
  cases hreport

end OpenMinion.SessionRetention
