import Mathlib.Data.Fintype.Basic
import OpenMinion.InterleavedThreads
import OpenMinion.SessionRetention

/-!
# Purges beside other clients

The queries of a purge and its transactions, interleaved with clients that add holds and acquire leases. The blockers
of a candidate are read long before it is deleted.
-/
namespace OpenMinion.ConcurrentRetention
open FencedSessionWrites InterleavedThreads IsoTimestamps JsonValues KeyedTables PythonText ReferentialDeletes
open SessionEventWrites SessionReferences SessionRetention SessionTables SessionTurnLeases TransitionRuns

/-- Arguments of `add_hold`; `freshId` is the `uuid4` of its event. -/
structure AddHold where
  sessionId : String
  reason : String
  actorId : String := "operator"
  freshId : String
  now : DateTime

/-- The id of a hold; `digest` is the hexadecimal SHA-256 of a text. -/
def AddHold.holdId (digest : String → String) (a : AddHold) : String :=
  "hold-" ++ String.ofList ((digest (a.sessionId ++ ":" ++ a.reason ++ ":" ++ a.actorId)).toList.take 16)

def AddHold.row (digest : String → String) (a : AddHold) : RetentionHoldRow where
  holdId := a.holdId digest
  sessionId := a.sessionId
  reason := a.reason
  actorId := a.actorId
  createdAt := a.now
  releasedAt := none

/-- The event of `add_hold`. -/
def AddHold.event (digest : String → String) (a : AddHold) : AppendEvent where
  sessionId := a.sessionId
  eventType := some "session.retention.hold_added"
  payload := [("hold_id", .str (a.holdId digest)), ("reason", .str a.reason)]
  freshId := a.freshId
  now := a.now

/-- The insert of `add_hold`. -/
def insertHold (db : SessionDb) (row : RetentionHoldRow) : Except StoreError SessionDb :=
  if db.hasSession row.sessionId && (lookup RetentionHoldRow.holdId row.holdId db.retentionHolds).isNone then
    .ok { db with retentionHolds := db.retentionHolds ++ [row] }
  else .error .integrityError

/-- A call of `purge` without `override_blockers`, and the clock reading of its dry run. -/
structure PurgeCall where
  env : RetentionEnv
  plan : RetentionPlan
  now : DateTime

inductive Activity where
  | idle
  /-- Before the query of `_candidate_rows`. -/
  | listing (call : PurgeCall)
  /-- The loop of `_candidate_rows`. -/
  | examining (call : PurgeCall) (rows : List SessionRow) (candidates : List RetentionCandidate)
  /-- `_blockers` of a row: the queries that are left, and what was found. -/
  | querying (call : PurgeCall) (row : SessionRow) (reason : RetentionReason) (queries found : List Blocker)
      (rows : List SessionRow) (candidates : List RetentionCandidate)
  /-- The loop of `purge`, before the hook `purge_session_records`. -/
  | purging (call : PurgeCall) (candidates : List RetentionCandidate)
  /-- Before `_purge_session`. -/
  | deleting (call : PurgeCall) (candidate : RetentionCandidate) (rest : List RetentionCandidate)
  /-- Before `remove_artifact_references`. -/
  | unreferencing (call : PurgeCall) (candidate : RetentionCandidate) (rest : List RetentionCandidate)
  /-- `add_hold`, before its event. -/
  | recording (event : AppendEvent)

def Activity.isIdle : Activity → Bool
  | .idle => true
  | _ => false

/-- A delete transaction that was committed, with what the session had at that moment. -/
structure Deletion where
  sessionId : String
  held : Bool
  leased : Bool
  deriving DecidableEq

structure Shared where
  db : SessionDb
  clock : DateTime
  deletions : List Deletion := []

def Shared.deletionOf (s : Shared) (sid : String) : Deletion :=
  ⟨sid, hasHold s.db sid, hasActiveLease s.db sid s.clock⟩

inductive Op where
  | purge (env : RetentionEnv) (plan : RetentionPlan)
  | addHold (a : AddHold)
  | acquire (a : AcquireLease)
  /-- Time passes. -/
  | wait (instant : DateTime)

section Steps

variable (rt : Runtime) (digest : String → String)

def begin (s : Shared) : Op → Shared × Activity
  | .purge env plan => (s, .listing ⟨env, plan, s.clock⟩)
  | .addHold a =>
    match insertHold s.db (a.row digest) with
    | .ok db => ({ s with db := db }, .recording (a.event digest))
    | .error _ => (s, .idle)
  | .acquire a => ({ s with db := committed s.db (acquire s.db a) }, .idle)
  | .wait instant => ({ s with clock := max s.clock instant }, .idle)

/-- The checks of `purge` after its dry run. -/
def afterDryRun (call : PurgeCall) (candidates : List RetentionCandidate) : Activity :=
  if call.env.snapshotHash candidates ≠ call.plan.snapshotHash then .idle
  else if candidates.any fun c => !c.blockers.isEmpty then .idle
  else .purging call candidates

/-- A row of the loop of `_candidate_rows`. -/
def afterReason (call : PurgeCall) (row : SessionRow) (rows : List SessionRow) (candidates : List RetentionCandidate) :
    Activity :=
  match retentionReason row.status row.updatedAt call.plan.policy call.now with
  | .error _ => .idle
  | .ok none => .examining call rows candidates
  | .ok (some reason) =>
    .querying call row reason [.retentionHold, .activeTurnLease, .activeShare] [] rows candidates

def delete (s : Shared) (call : PurgeCall) (candidate : RetentionCandidate) (rest : List RetentionCandidate) :
    Shared × Activity :=
  match purgeSession s.db candidate.sessionId with
  | .error _ => (s, .idle)
  | .ok (db, _) =>
    ({ s with db := db, deletions := s.deletions ++ [s.deletionOf candidate.sessionId] },
      .unreferencing call candidate rest)

def next (s : Shared) : Activity → Shared × Activity
  | .idle => (s, .idle)
  | .listing call => (s, .examining call (sessionsByUpdate s.db) [])
  | .examining call [] candidates => (s, afterDryRun call candidates)
  | .examining call (row :: rows) candidates => (s, afterReason call row rows candidates)
  | .querying call row reason (b :: queries) found rows candidates =>
    let found := if b.present s.db row.sessionId call.now then found ++ [b] else found
    (s, .querying call row reason queries found rows candidates)
  | .querying call row reason [] found rows candidates =>
    let candidate : RetentionCandidate := ⟨row.sessionId, reason, row.updatedAt, row.status, found⟩
    (s, .examining call rows (candidates ++ [candidate]))
  | .purging _ [] => (s, .idle)
  | .purging call (candidate :: rest) =>
    match call.env.purgeSessionRecords candidate.sessionId with
    | .error _ => (s, .idle)
    | .ok _ => (s, .deleting call candidate rest)
  | .deleting call candidate rest => delete s call candidate rest
  | .unreferencing call candidate rest =>
    match call.env.removeArtifactReferences candidate.sessionId with
    | .error _ => (s, .idle)
    | .ok _ => (s, .purging call rest)
  | .recording event => ({ s with db := committed s.db (appendEvent rt s.db event) }, .idle)

def clients : Threads Shared Activity Op Unit where
  isIdle := Activity.isIdle
  begin := begin digest
  next s act _ := next rt s act

end Steps

section Alone

variable {rt : Runtime} {s s' : Shared} {act : Activity}

/-- A client that is alone comes to the end of its operation, with these tables. -/
def EndsWith (rt : Runtime) (s : Shared) (act : Activity) (db : SessionDb) : Prop :=
  ∃ n s', (fun r => next rt r.1 r.2)^[n] (s, act) = (s', .idle) ∧ s'.db = db

theorem EndsWith.step {db : SessionDb} (h : EndsWith rt (next rt s act).1 (next rt s act).2 db) :
    EndsWith rt s act db := by
  obtain ⟨n, s', hn, hdb⟩ := h
  exact ⟨n + 1, s', by rw [Function.iterate_succ_apply, ← hn], hdb⟩

theorem endsWith_idle : EndsWith rt s .idle s.db := ⟨0, s, rfl, rfl⟩

/-- The loop of `purge`. -/
theorem endsWith_purging (call : PurgeCall) (candidates : List RetentionCandidate) :
    EndsWith rt s (.purging call candidates) (purgeCandidates call.env s.db candidates).1 := by
  induction candidates generalizing s with
  | nil => exact endsWith_idle.step
  | cons c rest ih =>
    apply EndsWith.step
    rw [next, purgeCandidates]
    cases hrecords : call.env.purgeSessionRecords c.sessionId with
    | error e => exact endsWith_idle
    | ok _ =>
      apply EndsWith.step
      rw [next, delete]
      cases hpurge : purgeSession s.db c.sessionId with
      | error e => exact endsWith_idle
      | ok r =>
        apply EndsWith.step
        rw [next]
        cases hartifacts : call.env.removeArtifactReferences c.sessionId with
        | error e => exact endsWith_idle
        | ok _ => exact ih

/-- The queries of `_blockers`. -/
theorem endsWith_querying (call : PurgeCall) (row : SessionRow) (reason : RetentionReason) (queries found : List Blocker)
    (rows : List SessionRow) (candidates : List RetentionCandidate) {db : SessionDb}
    (h : EndsWith rt s (.examining call rows (candidates ++ [⟨row.sessionId, reason, row.updatedAt, row.status,
      found ++ queries.filter fun b => b.present s.db row.sessionId call.now⟩])) db) :
    EndsWith rt s (.querying call row reason queries found rows candidates) db := by
  induction queries generalizing found with
  | nil =>
    apply EndsWith.step
    simpa [next] using h
  | cons b queries ih =>
    apply EndsWith.step
    apply ih
    by_cases hb : b.present s.db row.sessionId call.now = true
    · simpa [hb] using h
    · simpa [hb] using h

/-- The tables after `purge`, for the candidates that its dry run has found. -/
def purged (call : PurgeCall) (db : SessionDb) (found : Except StoreError (List RetentionCandidate)) : SessionDb :=
  match found with
  | .error _ => db
  | .ok candidates =>
    if call.env.snapshotHash candidates ≠ call.plan.snapshotHash then db
    else if candidates.any fun c => !c.blockers.isEmpty then db
    else (purgeCandidates call.env db candidates).1

/-- The loop of `_candidate_rows`, and what follows. -/
theorem endsWith_examining (call : PurgeCall) (rows : List SessionRow) (candidates : List RetentionCandidate) :
    EndsWith rt s (.examining call rows candidates) (purged call s.db
      ((rows.filterMapM (candidateRow s.db call.plan.policy call.now)).map (candidates ++ ·))) := by
  induction rows generalizing candidates with
  | nil =>
    apply EndsWith.step
    rw [next, afterDryRun]
    simp only [List.filterMapM_nil, pure, Except.pure, Except.map, List.append_nil, purged]
    split
    · exact endsWith_idle
    · split
      · exact endsWith_idle
      · exact endsWith_purging call candidates
  | cons row rows ih =>
    apply EndsWith.step
    rw [next, afterReason, List.filterMapM_cons, candidateRow]
    cases hreason : retentionReason row.status row.updatedAt call.plan.policy call.now with
    | error e => exact endsWith_idle
    | ok reason =>
      cases reason with
      | none => exact ih candidates
      | some reason =>
        apply endsWith_querying
        have hrest := ih (candidates ++ [⟨row.sessionId, reason, row.updatedAt, row.status,
          blockers s.db row.sessionId call.now⟩])
        simp only [bind, Except.bind, pure, Except.pure, Option.map_some]
        cases hrows : rows.filterMapM (candidateRow s.db call.plan.policy call.now) with
        | error e =>
          rw [hrows] at hrest
          exact hrest
        | ok found =>
          rw [hrows] at hrest
          simpa [Except.map, blockers] using hrest

end Alone

/-- Without interference, a client that calls `purge` comes to its end and leaves the tables
as the sequential `purge` does. -/
theorem purge_alone {Client : Type} [DecidableEq Client] (rt : Runtime) (digest : String → String)
    (σ : System Client Shared Activity) (t : Client) (env : RetentionEnv) (plan : RetentionPlan) :
    ∃ n s, run (clients rt digest).step (σ.become t (σ.shared, .idle))
        (.start t (.purge env plan) :: List.replicate n (.advance t ())) = σ.become t (s, .idle) ∧
      s.db = (purge env σ.shared.db plan false σ.shared.clock).1 := by
  have hpurged : purged ⟨env, plan, σ.shared.clock⟩ σ.shared.db
      ((candidateRows σ.shared.db plan.policy σ.shared.clock).map ([] ++ ·)) =
        (purge env σ.shared.db plan false σ.shared.clock).1 := by
    rw [purge, dryRun]
    cases candidateRows σ.shared.db plan.policy σ.shared.clock with
    | error e => rfl
    | ok candidates =>
      simp only [Except.map, List.nil_append, purged, bind, Except.bind, pure, Except.pure, Bool.not_false,
        Bool.and_true]
      split
      · rfl
      · split <;> rfl
  obtain ⟨n, s, hn, hdb⟩ : EndsWith rt σ.shared (.listing ⟨env, plan, σ.shared.clock⟩) _ :=
    (endsWith_examining ⟨env, plan, σ.shared.clock⟩ (sessionsByUpdate σ.shared.db) []).step
  refine ⟨n, s, ?_, hdb.trans hpurged⟩
  have hstart : (clients rt digest).step (σ.become t (σ.shared, .idle)) (.start t (.purge env plan)) =
      σ.become t (σ.shared, .listing ⟨env, plan, σ.shared.clock⟩) := by
    have hidle : ((σ.become t (σ.shared, .idle)).threads t).isIdle = true := by simp [Activity.isIdle]
    simp only [Threads.step, clients, hidle, if_true]
    exact become_become _
  rw [run_cons, hstart, run_advance, become_become]
  simp only [shared_become, threads_become, if_true]
  exact congrArg (σ.become t) hn

/-- The purge has queried the blocker for the session and has not found it; unless it comes to
an end before, it is going to delete the session. -/
def Activity.clears (b : Blocker) (sid : String) : Activity → Bool
  | .examining _ _ candidates => candidates.any fun c => c.sessionId = sid && b ∉ c.blockers
  | .querying _ row _ queries found _ candidates =>
    (row.sessionId = sid && b ∉ queries && b ∉ found) || candidates.any fun c => c.sessionId = sid && b ∉ c.blockers
  | .purging _ candidates => candidates.any fun c => c.sessionId = sid
  | .deleting _ candidate rest => candidate.sessionId = sid || rest.any fun c => c.sessionId = sid
  | .unreferencing _ _ rest => rest.any fun c => c.sessionId = sid
  | _ => false

def Op.adds (digest : String → String) (db : SessionDb) : Op → Option (Blocker × String)
  | .addHold a => if (insertHold db (a.row digest)).isOk then some (.retentionHold, a.sessionId) else none
  | .acquire a => if (SessionTurnLeases.acquire db a).isOk then some (.activeTurnLease, strip a.sessionId) else none
  | _ => none

variable {Client : Type}

def Undisturbed (digest : String → String) (σ : System Client Shared Activity) : Action Client Op Unit → Prop
  | .start _ op => ∀ p ∈ op.adds digest σ.shared.db, ∀ t, (σ.threads t).clears p.1 p.2 = false
  | .advance _ _ => True

instance [Fintype Client] (digest : String → String) (σ : System Client Shared Activity) :
    (a : Action Client Op Unit) → Decidable (Undisturbed digest σ a)
  | .start _ op =>
    inferInstanceAs (Decidable (∀ p ∈ op.adds digest σ.shared.db, ∀ t, (σ.threads t).clears p.1 p.2 = false))
  | .advance _ _ => isTrue trivial

/-- The session has no row for the blocker in the second tables that it has not in the first. -/
def NoNew (db db' : SessionDb) (sid : String) : Blocker → Prop
  | .retentionHold => ∀ r ∈ db'.retentionHolds, r.sessionId = sid → r ∈ db.retentionHolds
  | .activeTurnLease => ∀ r ∈ db'.turnLeases, r.sessionId = sid → r ∈ db.turnLeases
  | .activeShare => ∀ r ∈ db'.sessionShares, r.sessionId = sid → r ∈ db.sessionShares

section NoNew

variable {db db' : SessionDb} {sid : String} {b : Blocker}

theorem NoNew.present_eq_false (h : NoNew db db' sid b) {now later : DateTime} (hle : now ≤ later)
    (hb : b.present db sid now = false) : b.present db' sid later = false := by
  cases b with
  | retentionHold =>
    simp only [Blocker.present, hasHold, List.any_eq_false, Bool.and_eq_true, decide_eq_true_eq] at hb ⊢
    rintro r hr ⟨hsid, hreleased⟩
    exact hb r (h r hr hsid) ⟨hsid, hreleased⟩
  | activeTurnLease =>
    simp only [Blocker.present, hasActiveLease, List.any_eq_false, Bool.and_eq_true, decide_eq_true_eq,
      toIsoUtc_lt_iff] at hb ⊢
    rintro r hr ⟨⟨hsid, hreleased⟩, hexpires⟩
    exact hb r (h r hr hsid) ⟨⟨hsid, hreleased⟩, lt_of_le_of_lt hle hexpires⟩
  | activeShare =>
    simp only [Blocker.present, hasActiveShare, List.any_eq_false, Bool.and_eq_true, decide_eq_true_eq,
      toIsoUtc_lt_iff] at hb ⊢
    rintro r hr ⟨⟨hsid, hrevoked⟩, hexpires⟩
    exact hb r (h r hr hsid) ⟨⟨hsid, hrevoked⟩, lt_of_le_of_lt hle hexpires⟩

theorem noNew_of_eq (hholds : db'.retentionHolds = db.retentionHolds) (hleases : db'.turnLeases = db.turnLeases)
    (hshares : db'.sessionShares = db.sessionShares) : NoNew db db' sid b := by
  cases b with
  | retentionHold => exact fun r hr _ => hholds ▸ hr
  | activeTurnLease => exact fun r hr _ => hleases ▸ hr
  | activeShare => exact fun r hr _ => hshares ▸ hr

theorem NoNew.deleteFrom {o : String} (h : NoNew db db' sid b) (t : Table) :
    NoNew db (SessionReferences.deleteFrom db' t o) sid b := by
  cases b <;> cases t <;> first
    | exact h
    | exact fun r hr => h r (mem_deleteWhere.mp hr).1

theorem purgeSession_noNew {o : String} {count : ℕ} (h : purgeSession db o = .ok (db', count)) :
    NoNew db db' sid b := by
  have hfold := purgeSession_map_fst db o
  rw [h] at hfold
  have hstart : NoNew db db sid b := noNew_of_eq rfl rfl rfl
  refine foldlM_invariant (J := fun db₁ => NoNew db db₁ sid b) ?_ hstart hfold.symm
  intro db₁ t _ db₂ h₁ hdelete
  rw [Schema.deleteRows] at hdelete
  split at hdelete
  · cases hdelete
  · obtain rfl := Except.ok.inj hdelete
    exact h₁.deleteFrom t

theorem appendEvent_noNew {rt : Runtime} {a : AppendEvent} {id : String}
    (h : appendEvent rt db a = .ok (db', id)) : NoNew db db' sid b := by
  obtain ⟨_, _, _, _, db₁, runs, -, hinsert, rfl⟩ := appendEvent_ok h
  obtain rfl | ⟨-, -, -, rfl⟩ := insertSessionEvent_ok hinsert
  · exact noNew_of_eq rfl rfl rfl
  · exact noNew_of_eq rfl rfl rfl

theorem insertHold_noNew {row : RetentionHoldRow} (h : insertHold db row = .ok db')
    (hne : (b, sid) ≠ (.retentionHold, row.sessionId)) : NoNew db db' sid b := by
  rw [insertHold] at h
  split at h
  · obtain rfl := Except.ok.inj h
    cases b with
    | retentionHold =>
      intro r hr hsid
      rcases List.mem_append.mp hr with hr | hr
      · exact hr
      · obtain rfl := List.mem_singleton.mp hr
        exact absurd (by rw [hsid]) hne
    | activeTurnLease => exact fun _ hr _ => hr
    | activeShare => exact fun _ hr _ => hr
  · cases h

private theorem mem_updateWhere_of_ne {p : TurnLeaseRow → Bool} {f : TurnLeaseRow → TurnLeaseRow} {o : String}
    {leases : List TurnLeaseRow} (hp : ∀ r, p r = true → (f r).sessionId = o) (hsid : sid ≠ o)
    {r : TurnLeaseRow} (hr : r ∈ updateWhere p f leases) (hr' : r.sessionId = sid) : r ∈ leases := by
  obtain ⟨r₀, hr₀, rfl⟩ := mem_updateWhere.mp hr
  by_cases h : p r₀ = true
  · rw [if_pos h] at hr'
    exact absurd (hr'.symm.trans (hp r₀ h)) hsid
  · rw [if_neg h]
    exact hr₀

theorem putLease_noNew {row : TurnLeaseRow} (h : putLease db row = .ok db')
    (hne : (b, sid) ≠ (.activeTurnLease, row.sessionId)) : NoNew db db' sid b := by
  rw [putLease] at h
  split at h
  · obtain rfl := Except.ok.inj h
    cases b with
    | activeTurnLease =>
      have hsid : sid ≠ row.sessionId := fun hsid => hne (by rw [hsid])
      exact fun r hr => mem_updateWhere_of_ne (fun _ _ => rfl) hsid hr
    | retentionHold => exact fun _ hr _ => hr
    | activeShare => exact fun _ hr _ => hr
  · split at h
    · obtain rfl := Except.ok.inj h
      cases b with
      | activeTurnLease =>
        intro r hr hsid
        rcases List.mem_append.mp hr with hr | hr
        · exact hr
        · obtain rfl := List.mem_singleton.mp hr
          exact absurd (by rw [hsid]) hne
      | retentionHold => exact fun _ hr _ => hr
      | activeShare => exact fun _ hr _ => hr
    · cases h

theorem renewLocked_noNew {o : String} (hne : (b, sid) ≠ (.activeTurnLease, o)) (owner : String) (token : ℤ)
    (now expires : DateTime) : NoNew db (renewLocked db o owner token now expires).1 sid b := by
  rw [renewLocked]
  split
  · exact noNew_of_eq rfl rfl rfl
  · cases b with
    | activeTurnLease =>
      intro r hr
      refine mem_updateWhere_of_ne (fun r hr => ?_) (fun hsid => hne (by rw [hsid])) hr
      simp only [presentedFence, decide_eq_true_eq] at hr
      exact hr.1
    | retentionHold => exact fun _ hr _ => hr
    | activeShare => exact fun _ hr _ => hr

theorem acquire_noNew {a : AcquireLease} {lease : SessionTurnLease} (h : acquire db a = .ok (db', lease))
    (hne : (b, sid) ≠ (.activeTurnLease, strip a.sessionId)) : NoNew db db' sid b := by
  rw [acquire] at h
  split at h
  · next args hargs =>
    rw [← (acquireArguments_ok hargs).1] at hne
    rw [acquireLocked] at h
    split at h
    · next current _ =>
      have hrenewed : NoNew db
          (renewLocked db args.sid args.leaseOwner current.fenceToken args.now args.expires).1 sid b :=
        renewLocked_noNew hne _ _ _ _
      simp only at h
      split at h
      · split at h
        · obtain ⟨rfl, -⟩ := Prod.mk.inj (Except.ok.inj h)
          exact hrenewed
        · cases h
      · cases h
    · split at h
      · cases h
      · next db₁ hput =>
        split at h
        · obtain ⟨rfl, -⟩ := Prod.mk.inj (Except.ok.inj h)
          exact putLease_noNew hput hne
        · cases h
  · cases h

end NoNew

def Activity.readAt : Activity → Option DateTime
  | .listing call | .examining call _ _ | .querying call _ _ _ _ _ _ => some call.now
  | _ => none

/-- What a purge has cleared is still clear. -/
structure StillClear (s : Shared) (act : Activity) : Prop where
  absent : ∀ b sid, act.clears b sid = true → b.present s.db sid s.clock = false
  readAt : ∀ now ∈ act.readAt, now ≤ s.clock

def DeletedFree (s : Shared) : Prop := ∀ d ∈ s.deletions, d.held = false ∧ d.leased = false

section Invariant

variable {s s' : Shared} {act act' : Activity}

theorem StillClear.of_none (hclears : ∀ b sid, act.clears b sid = false) (hread : act.readAt = none) :
    StillClear s act := by
  refine ⟨fun b sid h => ?_, fun now h => ?_⟩
  · rw [hclears] at h
    cases h
  · rw [hread] at h
    cases h

theorem StillClear.mono (h : StillClear s act) (hclears : ∀ b sid, act'.clears b sid = true → act.clears b sid = true)
    (hread : ∀ now ∈ act'.readAt, now ∈ act.readAt) : StillClear s act' :=
  ⟨fun b sid hc => h.absent b sid (hclears b sid hc), fun now hn => h.readAt now (hread now hn)⟩

theorem StillClear.shared (h : StillClear s act) (hle : s.clock ≤ s'.clock)
    (hnew : ∀ b sid, act.clears b sid = true → b.present s.db sid s.clock = false →
      b.present s'.db sid s'.clock = false) : StillClear s' act :=
  ⟨fun b sid hc => hnew b sid hc (h.absent b sid hc), fun now hn => (h.readAt now hn).trans hle⟩

theorem StillClear.noNew (h : StillClear s act) (hle : s.clock ≤ s'.clock)
    (hnew : ∀ b sid, act.clears b sid = true → NoNew s.db s'.db sid b) : StillClear s' act :=
  h.shared hle fun b sid hc hb => (hnew b sid hc).present_eq_false hle hb

theorem begin_noNew (digest : String → String) (s : Shared) (op : Op) {b : Blocker} {sid : String}
    (hadds : (b, sid) ∉ op.adds digest s.db) : NoNew s.db (begin digest s op).1.db sid b := by
  cases op with
  | purge env plan => exact noNew_of_eq rfl rfl rfl
  | wait instant => exact noNew_of_eq rfl rfl rfl
  | addHold a =>
    cases hinsert : insertHold s.db (a.row digest) with
    | error e =>
      simp only [begin, hinsert]
      exact noNew_of_eq rfl rfl rfl
    | ok db =>
      simp only [begin, hinsert]
      refine insertHold_noNew hinsert fun heq => hadds ?_
      rw [heq]
      simp only [Op.adds, hinsert]
      rfl
  | acquire a =>
    cases hacquire : SessionTurnLeases.acquire s.db a with
    | error e =>
      simp only [begin, hacquire, committed]
      exact noNew_of_eq rfl rfl rfl
    | ok r =>
      simp only [begin, hacquire, committed]
      refine acquire_noNew hacquire fun heq => hadds ?_
      rw [heq]
      simp only [Op.adds, hacquire]
      rfl

theorem clock_le_begin (digest : String → String) (s : Shared) (op : Op) : s.clock ≤ (begin digest s op).1.clock := by
  cases op with
  | wait instant => exact le_max_left _ _
  | addHold a =>
    rw [begin]
    split <;> exact le_rfl
  | _ => exact le_rfl

theorem StillClear.next_examining (rt : Runtime) {call : PurgeCall} {rows : List SessionRow}
    {candidates : List RetentionCandidate} (h : StillClear s (.examining call rows candidates)) :
    StillClear (next rt s (.examining call rows candidates)).1 (next rt s (.examining call rows candidates)).2 := by
  cases rows with
  | nil =>
    rw [ConcurrentRetention.next, afterDryRun]
    split
    · exact .of_none (fun _ _ => rfl) rfl
    · split
      · exact .of_none (fun _ _ => rfl) rfl
      · next hblockers =>
        refine h.mono (fun b sid hc => ?_) (fun _ hn => by cases hn)
        obtain ⟨c, hc, hsid⟩ := List.any_eq_true.mp hc
        have hnone : c.blockers = [] := by
          simpa using List.any_eq_false.mp (Bool.eq_false_of_not_eq_true hblockers) c hc
        refine List.any_eq_true.mpr ⟨c, hc, ?_⟩
        simpa [hnone] using hsid
  | cons row rows =>
    rw [ConcurrentRetention.next, afterReason]
    split
    · exact .of_none (fun _ _ => rfl) rfl
    · exact h.mono (fun _ _ hc => hc) fun _ hn => hn
    · refine h.mono (fun b sid hc => ?_) fun _ hn => hn
      simp only [Activity.clears, Bool.or_eq_true] at hc
      -- no query is answered yet
      refine hc.resolve_left ?_
      cases b <;> simp

theorem StillClear.next_querying (rt : Runtime) {call : PurgeCall} {row : SessionRow} {reason : RetentionReason}
    {queries found : List Blocker} {rows : List SessionRow} {candidates : List RetentionCandidate}
    (h : StillClear s (.querying call row reason queries found rows candidates)) :
    StillClear (next rt s (.querying call row reason queries found rows candidates)).1
      (next rt s (.querying call row reason queries found rows candidates)).2 := by
  cases queries with
  | nil =>
    refine h.mono (fun b sid hc => ?_) fun _ hn => hn
    simp only [ConcurrentRetention.next, Activity.clears, List.any_append, List.any_cons, List.any_nil,
      Bool.or_false, Bool.or_eq_true] at hc ⊢
    rcases hc with hc | hc
    · exact .inr hc
    · exact .inl (by simpa using hc)
  | cons q queries =>
    refine ⟨fun b sid hc => ?_, h.readAt⟩
    simp only [ConcurrentRetention.next, Activity.clears, Bool.or_eq_true, Bool.and_eq_true, decide_eq_true_eq] at hc
    rcases hc with ⟨⟨hsid, hqueries⟩, hfound⟩ | hc
    · -- the query that was made now, or an earlier one
      by_cases hb : b = q
      · subst hb
        have hpresent : b.present s.db row.sessionId call.now = false := by
          by_contra hpresent
          simp [Bool.not_eq_false _ ▸ hpresent] at hfound
        rw [← hsid]
        have hnow : call.now ≤ s.clock := h.readAt call.now rfl
        exact NoNew.present_eq_false (noNew_of_eq rfl rfl rfl) hnow hpresent
      · refine h.absent b sid ?_
        have hfound : b ∉ found := by
          intro hmem
          split at hfound
          · exact hfound (List.mem_append_left _ hmem)
          · exact hfound hmem
        simp [Activity.clears, hsid, hqueries, hb, hfound]
    · refine h.absent b sid ?_
      simp only [Activity.clears, Bool.or_eq_true]
      exact .inr hc

theorem StillClear.next (rt : Runtime) (h : StillClear s act) : StillClear (next rt s act).1 (next rt s act).2 := by
  cases act with
  | idle => exact h
  | listing call => exact h.mono (fun _ _ hc => by cases hc) fun _ hn => hn
  | examining call rows candidates => exact h.next_examining rt
  | querying call row reason queries found rows candidates => exact h.next_querying rt
  | purging call candidates =>
    cases candidates with
    | nil => exact .of_none (fun _ _ => rfl) rfl
    | cons c rest =>
      rw [ConcurrentRetention.next]
      split
      · exact .of_none (fun _ _ => rfl) rfl
      · exact h.mono (fun _ _ hc => hc) (fun _ hn => by cases hn)
  | deleting call c rest =>
    rw [ConcurrentRetention.next, delete]
    split
    · exact .of_none (fun _ _ => rfl) rfl
    · next db _ hpurge =>
      have hrest : StillClear s (.unreferencing call c rest) := by
        refine h.mono (fun b sid hc => ?_) (fun _ hn => by cases hn)
        simp only [Activity.clears, Bool.or_eq_true] at hc ⊢
        exact .inr hc
      exact hrest.noNew le_rfl fun _ _ _ => purgeSession_noNew hpurge
  | unreferencing call c rest =>
    rw [ConcurrentRetention.next]
    split
    · exact .of_none (fun _ _ => rfl) rfl
    · exact h.mono (fun _ _ hc => hc) (fun _ hn => by cases hn)
  | recording event => exact .of_none (fun _ _ => rfl) rfl

theorem next_shared (rt : Runtime) (s : Shared) (act : Activity) :
    (next rt s act).1 = s ∨
    (∃ call c rest db count, act = .deleting call c rest ∧ purgeSession s.db c.sessionId = .ok (db, count) ∧
      (next rt s act).1 = { s with db := db, deletions := s.deletions ++ [s.deletionOf c.sessionId] }) ∨
    ∃ event db id, appendEvent rt s.db event = .ok (db, id) ∧ (next rt s act).1 = { s with db := db } := by
  cases act with
  | idle => exact .inl rfl
  | listing call => exact .inl rfl
  | examining call rows candidates => cases rows <;> exact .inl rfl
  | querying call row reason queries found rows candidates => cases queries <;> exact .inl rfl
  | purging call candidates =>
    cases candidates with
    | nil => exact .inl rfl
    | cons c rest =>
      rw [next]
      split <;> exact .inl rfl
  | deleting call c rest =>
    rw [next, delete]
    split
    · exact .inl rfl
    · next db count hpurge => exact .inr (.inl ⟨call, c, rest, db, count, rfl, hpurge, rfl⟩)
  | unreferencing call c rest =>
    rw [next]
    split <;> exact .inl rfl
  | recording event =>
    rw [next]
    cases happend : appendEvent rt s.db event with
    | error e => exact .inl rfl
    | ok r => exact .inr (.inr ⟨event, r.1, r.2, happend, rfl⟩)

theorem StillClear.next_other (rt : Runtime) (h : StillClear s act) (act' : Activity) :
    StillClear (ConcurrentRetention.next rt s act').1 act := by
  rcases next_shared rt s act' with hs | ⟨_, _, _, db, count, -, hpurge, hs⟩ | ⟨event, db, id, happend, hs⟩
  · rw [hs]
    exact h
  · rw [hs]
    exact h.noNew le_rfl fun _ _ _ => purgeSession_noNew hpurge
  · rw [hs]
    exact h.noNew le_rfl fun _ _ _ => appendEvent_noNew happend

theorem DeletedFree.next (rt : Runtime) (h : DeletedFree s) (hact : StillClear s act) :
    DeletedFree (ConcurrentRetention.next rt s act).1 := by
  rcases next_shared rt s act with hs | ⟨call, c, rest, db, count, rfl, -, hs⟩ | ⟨event, db, id, -, hs⟩
  · rw [hs]
    exact h
  · rw [hs]
    intro d hd
    rcases List.mem_append.mp hd with hd | hd
    · exact h d hd
    · obtain rfl := List.mem_singleton.mp hd
      have hclears : ∀ b, (Activity.deleting call c rest).clears b c.sessionId = true := by
        intro b
        simp [Activity.clears]
      exact ⟨hact.absent .retentionHold _ (hclears _), hact.absent .activeTurnLease _ (hclears _)⟩
  · rw [hs]
    exact h

theorem deletions_begin (digest : String → String) (s : Shared) (op : Op) :
    (begin digest s op).1.deletions = s.deletions := by
  cases op with
  | addHold a =>
    rw [begin]
    split <;> rfl
  | _ => rfl

theorem StillClear.begin (digest : String → String) (s : Shared) (op : Op) :
    StillClear (ConcurrentRetention.begin digest s op).1 (ConcurrentRetention.begin digest s op).2 := by
  cases op with
  | purge env plan =>
    refine ⟨fun _ _ hc => ?_, fun _ hn => (Option.some.inj hn).ge⟩
    cases hc
  | addHold a =>
    rw [ConcurrentRetention.begin]
    split <;> exact .of_none (fun _ _ => rfl) rfl
  | acquire a => exact .of_none (fun _ _ => rfl) rfl
  | wait instant => exact .of_none (fun _ _ => rfl) rfl

end Invariant

def start (db : SessionDb) (clock : DateTime) : System Client Shared Activity := ⟨⟨db, clock, []⟩, fun _ => .idle⟩

/-- In every undisturbed run no session is deleted while it has an unreleased hold or a turn
lease that is neither released nor expired. -/
theorem purge_honours_blockers_when_undisturbed [DecidableEq Client] (rt : Runtime) (digest : String → String)
    (db : SessionDb) (clock : DateTime) (actions : List (Action Client Op Unit))
    (h : Guarded (clients rt digest).step (Undisturbed digest) (start db clock) actions) :
    ∀ d ∈ (run (clients rt digest).step (start db clock) actions).shared.deletions,
      d.held = false ∧ d.leased = false := by
  have hstart : Annotated DeletedFree StillClear (start db clock : System Client Shared Activity) :=
    ⟨fun d hd => (List.not_mem_nil hd).elim, fun t => .of_none (fun _ _ => rfl) rfl⟩
  refine (annotated_run ?_ ?_ hstart h).shared
  · intro σ t op hσ hok _
    refine ⟨?_, .begin digest σ.shared op, fun t' _ => ?_⟩
    · intro d hd
      have hdeletions : (begin digest σ.shared op).1.deletions = σ.shared.deletions := deletions_begin ..
      exact hσ.shared d (hdeletions ▸ hd)
    · refine (hσ.threads t').noNew (clock_le_begin digest σ.shared op) fun b sid hc => ?_
      refine begin_noNew digest σ.shared op fun hadds => ?_
      rw [hok (b, sid) hadds t'] at hc
      cases hc
  · intro σ t _ hσ _
    exact ⟨hσ.shared.next rt (hσ.threads t), (hσ.threads t).next rt, fun t' _ => (hσ.threads t').next_other rt _⟩

def staleAndUsed : SessionDb :=
  let db := committed {} (insertSession {} { sessionId := some "stale", freshId := "", now := turnStart })
  let db := committed db (insertSession db { sessionId := some "used", freshId := "", now := turnStart })
  committed db (appendTurn asciiRuntime db { lateTurn with sessionId := "used", now := fortyDaysLater })

def purgeStale : Op := .purge plainRetentionEnv (inactivePlan "stale")

def holdOn (sessionId : String) : Op :=
  .addHold { sessionId := sessionId, reason := "audit", freshId := "h1", now := fortyDaysLater }

def leaseOf (sessionId : String) : Op :=
  .acquire { sessionId := sessionId, owner := "a", requestId := "r1", now := fortyDaysLater }

def advances (t : Bool) (steps : ℕ) : List (Action Bool Op Unit) := List.replicate steps (.advance t ())

def otherSessionHeld : List (Action Bool Op Unit) :=
  Action.start true purgeStale :: advances true 6 ++ [Action.start false (holdOn "used")] ++ advances false 1 ++
    Action.start false (leaseOf "used") :: advances true 6

theorem purge_honours_blockers_otherSessionHeld :
    (run (clients asciiRuntime id).step (start staleAndUsed fortyDaysLater) otherSessionHeld).shared.deletions =
      [⟨"stale", false, false⟩] ∧
    ∀ d ∈ (run (clients asciiRuntime id).step (start staleAndUsed fortyDaysLater) otherSessionHeld).shared.deletions,
      d.held = false ∧ d.leased = false := by
  refine ⟨by decide +kernel, ?_⟩
  exact purge_honours_blockers_when_undisturbed asciiRuntime id staleAndUsed fortyDaysLater otherSessionHeld
    (by decide +kernel)

def heldBeforeDelete : List (Action Bool Op Unit) :=
  Action.start true purgeStale :: advances true 6 ++ [Action.start false (holdOn "stale")] ++ advances false 1 ++
    Action.start false (leaseOf "stale") :: advances true 6

/-- The held and leased session is deleted. -/
theorem purge_ignores_late_blockers :
    ¬ ∀ actions : List (Action Bool Op Unit),
      ∀ d ∈ (run (clients asciiRuntime id).step (start staleAndUsed fortyDaysLater) actions).shared.deletions,
        d.held = false ∧ d.leased = false := by
  intro hfree
  have hdeletions : (run (clients asciiRuntime id).step (start staleAndUsed fortyDaysLater)
      heldBeforeDelete).shared.deletions = [⟨"stale", true, true⟩] := by decide +kernel
  have hheld := (hfree heldBeforeDelete ⟨"stale", true, true⟩ (by rw [hdeletions]; exact List.mem_cons_self)).1
  cases hheld

end OpenMinion.ConcurrentRetention
