import OpenMinion.ListPositions
import OpenMinion.SessionStateWrites
import OpenMinion.TransitionRuns

/-!
# The active state of a session

The latest snapshot decides the active state before any working state. One that a working state follows, or one of the
derived views, hides the state that was put last.
-/
namespace OpenMinion.ActiveStates
open IsoTimestamps JsonValues KeyedTables ListPositions SessionEventWrites SessionStateWrites SessionTables TransitionRuns

/-- The calls that write working states, summaries and snapshots; working states are put inline. -/
inductive StateCall where
  | putWorkingState (sessionId : String) (stateRef : Option String) (stateInline : Dict) (now : DateTime)
  | createSnapshot (c : CreateSnapshot)
  | updateSummary (u : UpdateSummary)
  | updateDerivedViews (v : UpdateDerivedViews)

/-- The tables, and the inline state of the last `put_working_state` of the session. -/
structure StateRun where
  db : SessionDb
  last : Option Dict

/-- `update_summary`: the row, then its event. -/
def updateSummary (rt : Runtime) (db : SessionDb) (u : UpdateSummary) : SessionDb :=
  match upsertSummary db u with
  | .error _ => db
  | .ok (db₁, _) => committed db₁ (appendEvent rt db₁ u.event)

section
variable (rt : Runtime) (sid : String) (σ : StateRun)

def step : StateCall → StateRun
  | .putWorkingState sessionId stateRef stateInline now =>
    match putWorkingState σ.db { sessionId, stateRef, stateInline := some stateInline, now } with
    | .ok (db, _) => ⟨db, if sessionId = sid then some stateInline else σ.last⟩
    | .error _ => σ
  | .createSnapshot c => { σ with db := committed σ.db (createSnapshot rt σ.db c) }
  | .updateSummary u => { σ with db := updateSummary rt σ.db u }
  | .updateDerivedViews v => { σ with db := updateDerivedViews σ.db v }

/-- The active state is the inline state that was put last. -/
def ActiveIsLast : Prop := ∀ state, σ.last = some state → getActiveState σ.db sid = state

end

def StaysLatest (snapshot new : SessionSnapshotRow) : Prop :=
  new.seqUpto < snapshot.seqUpto ∨ new.seqUpto = snapshot.seqUpto ∧ new.createdAt < snapshot.createdAt

instance (snapshot new : SessionSnapshotRow) : Decidable (StaysLatest snapshot new) :=
  inferInstanceAs (Decidable (_ ∨ _))

def Insertable (db : SessionDb) (row : SessionSnapshotRow) : Prop :=
  db.hasSession row.sessionId = true ∧ lookup SessionSnapshotRow.snapshotId row.snapshotId db.sessionSnapshots = none

/-- A working state is put where no snapshot has another one; derived views are stored for other sessions, before a
state was put, or behind another snapshot. -/
def Visible (sid : String) (σ : StateRun) : StateCall → Prop
  | .putWorkingState sessionId _ stateInline _ => sessionId = sid → σ.db.hasSession sid = true →
      ∀ snapshot, latestSnapshot σ.db sid = some snapshot → snapshot.state = stateInline
  | .updateDerivedViews v => v.sessionId = sid → ∀ row, v.row σ.db = some row → Insertable σ.db row →
      (∃ snapshot, latestSnapshot σ.db sid = some snapshot ∧ StaysLatest snapshot row) ∨ ∀ state, σ.last = some state → state = []
  | .createSnapshot _ | .updateSummary _ => True

variable {rt : Runtime} {sid : String} {db db' : SessionDb}

/-- The tables that the active state is read from are the same for the session. -/
structure SameStates (sid : String) (db db' : SessionDb) : Prop where
  snapshot : latestSnapshot db' sid = latestSnapshot db sid
  working : getLatestWorkingState db' sid = getLatestWorkingState db sid

theorem SameStates.refl (sid : String) (db : SessionDb) : SameStates sid db db := ⟨rfl, rfl⟩

theorem SameStates.trans {db₁ : SessionDb} (h : SameStates sid db db₁) (h' : SameStates sid db₁ db') : SameStates sid db db' :=
  ⟨h'.snapshot.trans h.snapshot, h'.working.trans h.working⟩

theorem SameStates.of_tables (hsnapshots : db'.sessionSnapshots = db.sessionSnapshots)
    (hworking : db'.workingState = db.workingState) : SameStates sid db db' := by
  refine ⟨?_, ?_⟩
  · rw [latestSnapshot, latestSnapshot, hsnapshots]
  · rw [getLatestWorkingState, getLatestWorkingState, hworking]

theorem SameStates.activeState (h : SameStates sid db db') : getActiveState db' sid = getActiveState db sid := by
  rw [getActiveState, getActiveState, h.snapshot, h.working]

theorem sameStates_appendEvent {a : AppendEvent} : SameStates sid db (committed db (appendEvent rt db a)) := by
  cases h : appendEvent rt db a with
  | error => exact .refl sid db
  | ok result =>
    obtain ⟨after, id⟩ := result
    obtain ⟨_, _, _, _, db₁, runs, -, hinsert, hdb⟩ := appendEvent_ok h
    rw [committed, hdb]
    rcases insertSessionEvent_ok hinsert with rfl | ⟨-, -, -, rfl⟩
    · exact .of_tables rfl rfl
    · exact .of_tables rfl rfl

theorem upsertSummary_ok {u : UpdateSummary} {value : Unit} (h : upsertSummary db u = .ok (db', value)) :
    db'.sessionSnapshots = db.sessionSnapshots ∧ db'.workingState = db.workingState := by
  rw [upsertSummary] at h
  split at h
  · cases h
    exact ⟨rfl, rfl⟩
  · cases h

theorem sameStates_updateSummary {u : UpdateSummary} : SameStates sid db (updateSummary rt db u) := by
  rw [updateSummary]
  cases h : upsertSummary db u with
  | error => exact .refl sid db
  | ok result =>
    obtain ⟨hsnapshots, hworking⟩ := upsertSummary_ok h
    exact (SameStates.of_tables hsnapshots hworking).trans sameStates_appendEvent

theorem insertSnapshot_ok {row : SessionSnapshotRow} (h : insertSnapshot db row = .ok db') :
    Insertable db row ∧ db' = { db with sessionSnapshots := db.sessionSnapshots ++ [row] } := by
  rw [insertSnapshot] at h
  split at h
  · next hok =>
    rw [Bool.and_eq_true, Option.isNone_iff_eq_none] at hok
    exact ⟨hok, (Except.ok.inj h).symm⟩
  · cases h

theorem staysLatest_iff (snapshot new : SessionSnapshotRow) : StaysLatest snapshot new ↔
    ¬ (snapshot.seqUpto < new.seqUpto ∨ snapshot.seqUpto = new.seqUpto ∧ snapshot.createdAt ≤ new.createdAt) := by
  rw [StaysLatest, ← not_le (a := snapshot.createdAt)]
  rcases lt_trichotomy new.seqUpto snapshot.seqUpto with hlt | heq | hlt
  · simp [hlt, hlt.not_gt, hlt.ne']
  · simp [heq]
  · simp [hlt, hlt.not_gt, hlt.ne']

theorem latestSnapshot_append (row : SessionSnapshotRow) :
    latestSnapshot { db with sessionSnapshots := db.sessionSnapshots ++ [row] } sid =
      if row.sessionId = sid then some (match latestSnapshot db sid with
        | none => row
        | some snapshot => if StaysLatest snapshot row then snapshot else row)
      else latestSnapshot db sid := by
  rw [latestSnapshot, List.reverse_append, List.reverse_singleton, List.singleton_append, List.filter_cons]
  by_cases hsid : row.sessionId = sid
  · rw [if_pos hsid, if_pos (decide_eq_true hsid), List.insertionSort_cons, head?_orderedInsert, latestSnapshot]
    generalize List.head? _ = latest
    cases latest with
    | none => rfl
    | some snapshot =>
      by_cases hstays : StaysLatest snapshot row
      · simp only [if_neg ((staysLatest_iff snapshot row).mp hstays), if_pos hstays]
      · simp only [if_pos (not_not.mp ((staysLatest_iff snapshot row).not.mp hstays)), if_neg hstays]
  · rw [if_neg hsid, if_neg (by simpa using hsid)]
    rfl

theorem version_lt_maxVersion {row : WorkingStateRow} (hrow : row ∈ db.workingState) :
    row.version < maxVersion db row.sessionId + 1 := by
  have hmem : row.version ∈ (db.workingState.filter fun r => r.sessionId = row.sessionId).map WorkingStateRow.version :=
    List.mem_map.mpr ⟨row, by simp [hrow], rfl⟩
  rw [maxVersion, List.max?_eq_some_max (List.ne_nil_of_mem hmem)]
  exact Nat.lt_succ_of_le (List.le_max_of_mem hmem)

theorem putWorkingState_ok (sid : String) {w : PutWorkingState} {version : ℕ} (h : putWorkingState db w = .ok (db', version)) :
    db.hasSession w.sessionId = true ∧ latestSnapshot db' sid = latestSnapshot db sid ∧
      getLatestWorkingState db' sid =
        if w.sessionId = sid then some ⟨w.sessionId, maxVersion db w.sessionId + 1, w.now, w.stateRef, w.stateInline⟩
        else getLatestWorkingState db sid := by
  rw [putWorkingState] at h
  dsimp only at h
  by_cases hsession : db.hasSession w.sessionId = true
  · rw [if_pos hsession] at h
    cases h
    refine ⟨hsession, rfl, ?_⟩
    generalize hrow : (⟨w.sessionId, maxVersion db w.sessionId + 1, w.now, w.stateRef, w.stateInline⟩ : WorkingStateRow) = row
    have hsessionId : row.sessionId = w.sessionId := by rw [← hrow]
    have hversion : row.version = maxVersion db w.sessionId + 1 := by rw [← hrow]
    change (((db.workingState ++ [row]).filter fun r => decide (r.sessionId = sid)).insertionSort
      fun a b => b.version ≤ a.version).head? = _
    rw [List.filter_append]
    by_cases hsid : w.sessionId = sid
    · have hfilter : [row].filter (fun r => decide (r.sessionId = sid)) = [row] :=
        List.filter_cons_of_pos (decide_eq_true (hsessionId.trans hsid))
      rw [if_pos hsid, hfilter, head?_insertionSort_append (fun a b => le_total b.version a.version)
        fun a b c hab hbc => hbc.trans hab]
      cases hlatest : ((db.workingState.filter fun r => decide (r.sessionId = sid)).insertionSort fun a b => b.version ≤ a.version).head? with
      | none => rfl
      | some latest =>
        have hmem : latest ∈ db.workingState := by
          have hsorted := List.mem_of_head? hlatest
          exact (List.mem_filter.mp ((List.perm_insertionSort _ _).mem_iff.mp hsorted)).1
        have hlatestSid : latest.sessionId = w.sessionId := by
          have hsorted := List.mem_of_head? hlatest
          exact (of_decide_eq_true (List.mem_filter.mp ((List.perm_insertionSort _ _).mem_iff.mp hsorted)).2).trans hsid.symm
        have hlt := version_lt_maxVersion hmem
        rw [hlatestSid, ← hversion] at hlt
        exact congrArg some (if_neg (not_le.mpr hlt))
    · have hfilter : [row].filter (fun r => decide (r.sessionId = sid)) = [] :=
        List.filter_cons_of_neg (by simpa [hsessionId] using hsid)
      rw [if_neg hsid, hfilter, List.append_nil]
      rfl
  · rw [if_neg hsession] at h
    cases h

theorem putWorkingState_error {w : PutWorkingState} {error : StoreError} (h : putWorkingState db w = .error error) :
    db.hasSession w.sessionId ≠ true := by
  intro hsession
  rw [putWorkingState] at h
  dsimp only at h
  rw [if_pos hsession] at h
  cases h

theorem createSnapshot_ok {c : CreateSnapshot} {id : String} (h : createSnapshot rt db c = .ok (db', id)) :
    db' = ({ db with sessionSnapshots := db.sessionSnapshots ++ [c.row rt db] }).touchSession c.sessionId c.now := by
  rw [createSnapshot] at h
  split at h
  · rw [storeSnapshot] at h
    obtain ⟨db₁, hinsert, h⟩ := map_eq_ok.mp h
    obtain ⟨-, rfl⟩ := insertSnapshot_ok hinsert
    cases h
    rfl
  · cases h

theorem derivedRow_spec {v : UpdateDerivedViews} {row : SessionSnapshotRow} (h : v.row db = some row) :
    row.sessionId = v.sessionId ∧ row.state = [] := by
  obtain ⟨last, -, rfl⟩ := Option.map_eq_some_iff.mp h
  exact ⟨rfl, rfl⟩

theorem storeDerivedViews_eq (db : SessionDb) (row : SessionSnapshotRow) : storeDerivedViews db row = db ∧ ¬ Insertable db row ∨
    Insertable db row ∧ storeDerivedViews db row = { db with sessionSnapshots := db.sessionSnapshots ++ [row] } := by
  rw [storeDerivedViews]
  cases h : insertSnapshot db row with
  | ok =>
    obtain ⟨hok, rfl⟩ := insertSnapshot_ok h
    exact .inr ⟨hok, rfl⟩
  | error =>
    refine .inl ⟨rfl, fun hok => ?_⟩
    rw [insertSnapshot, hok.1, hok.2] at h
    cases h

/-- The latest working state is the one that was put last. -/
def Recorded (sid : String) (σ : StateRun) : Prop :=
  ∀ state, σ.last = some state → ∃ row, getLatestWorkingState σ.db sid = some row ∧ row.stateInline = some state

variable {σ : StateRun}

theorem Recorded.stateOf (h : Recorded sid σ) {state : Dict} (hlast : σ.last = some state) :
    stateOf (getLatestWorkingState σ.db sid) = state := by
  obtain ⟨row, hrow, hinline⟩ := h state hlast
  rw [hrow, SessionStateWrites.stateOf]
  simp only [hinline]

theorem recorded_step (h : Recorded sid σ) (call : StateCall) : Recorded sid (step rt sid σ call) := by
  cases call with
  | putWorkingState sessionId stateRef stateInline now =>
    rw [step]
    split
    · next db version hput =>
      obtain ⟨-, -, hworking⟩ := putWorkingState_ok sid hput
      intro state hlast
      by_cases hsid : sessionId = sid
      · rw [if_pos hsid] at hworking
        dsimp only at hlast
        rw [if_pos hsid] at hlast
        exact ⟨_, hworking, hlast⟩
      · rw [if_neg hsid] at hworking
        dsimp only at hlast
        rw [if_neg hsid] at hlast
        obtain ⟨row, hrow, hinline⟩ := h state hlast
        exact ⟨row, hworking.trans hrow, hinline⟩
    · exact h
  | createSnapshot c =>
    intro state hlast
    have hworking : getLatestWorkingState (committed σ.db (createSnapshot rt σ.db c)) sid = getLatestWorkingState σ.db sid := by
      cases hcall : createSnapshot rt σ.db c with
      | error => rfl
      | ok result =>
        obtain ⟨after, id⟩ := result
        rw [committed, createSnapshot_ok hcall]
        rfl
    obtain ⟨row, hrow, hinline⟩ := h state hlast
    exact ⟨row, hworking.trans hrow, hinline⟩
  | updateSummary u =>
    intro state hlast
    obtain ⟨row, hrow, hinline⟩ := h state hlast
    exact ⟨row, (sameStates_updateSummary (u := u)).working.trans hrow, hinline⟩
  | updateDerivedViews v =>
    intro state hlast
    have hworking : getLatestWorkingState (updateDerivedViews σ.db v) sid = getLatestWorkingState σ.db sid := by
      rw [updateDerivedViews]
      split
      · next row _ =>
        rcases storeDerivedViews_eq σ.db row with ⟨heq, -⟩ | ⟨-, heq⟩
        · rw [heq]
        · rw [heq]
          rfl
      · rfl
    obtain ⟨row, hrow, hinline⟩ := h state hlast
    exact ⟨row, hworking.trans hrow, hinline⟩

theorem getActiveState_append (db : SessionDb) (row : SessionSnapshotRow) (hsid : row.sessionId = sid) :
    (∃ snapshot, latestSnapshot db sid = some snapshot ∧ StaysLatest snapshot row) ∧
      getActiveState { db with sessionSnapshots := db.sessionSnapshots ++ [row] } sid = getActiveState db sid ∨
    (¬ ∃ snapshot, latestSnapshot db sid = some snapshot ∧ StaysLatest snapshot row) ∧
      getActiveState { db with sessionSnapshots := db.sessionSnapshots ++ [row] } sid = row.state := by
  rw [getActiveState, latestSnapshot_append, if_pos hsid, getActiveState]
  cases hlatest : latestSnapshot db sid with
  | none => exact .inr ⟨(fun ⟨_, h, _⟩ => nomatch h), rfl⟩
  | some snapshot =>
    by_cases hstays : StaysLatest snapshot row
    · exact .inl ⟨⟨snapshot, rfl, hstays⟩, by simp only [if_pos hstays]⟩
    · refine .inr ⟨?_, by simp only [if_neg hstays]⟩
      rintro ⟨other, heq, h⟩
      cases heq
      exact hstays h

theorem sameStates_append {row : SessionSnapshotRow} (hsid : row.sessionId ≠ sid) :
    SameStates sid db { db with sessionSnapshots := db.sessionSnapshots ++ [row] } :=
  ⟨by rw [latestSnapshot_append, if_neg hsid], rfl⟩

theorem activeIsLast_of_same (hlast : ActiveIsLast sid σ) (hsame : SameStates sid σ.db db) : ActiveIsLast sid ⟨db, σ.last⟩ := by
  intro state hstate
  change getActiveState db sid = state
  rw [hsame.activeState]
  exact hlast state hstate

theorem activeIsLast_step_iff (hrecorded : Recorded sid σ) (hactive : ActiveIsLast sid σ) (call : StateCall) :
    ActiveIsLast sid (step rt sid σ call) ↔ Visible sid σ call := by
  cases call with
  | putWorkingState sessionId stateRef stateInline now =>
    rw [step]
    cases hput : putWorkingState σ.db { sessionId, stateRef, stateInline := some stateInline, now } with
    | error =>
      exact iff_of_true hactive fun hsid hsession => absurd (hsid ▸ hsession) (putWorkingState_error hput)
    | ok result =>
      obtain ⟨after, version⟩ := result
      obtain ⟨hsession, hsnapshot, hworking⟩ := putWorkingState_ok sid hput
      by_cases hsid : sessionId = sid
      · rw [if_pos hsid] at hworking
        rw [ActiveIsLast]
        simp only [if_pos hsid, Option.some.injEq, forall_eq']
        rw [getActiveState, hsnapshot, hworking]
        cases hlatest : latestSnapshot σ.db sid with
        | none =>
          refine iff_of_true rfl fun _ _ snapshot hsome => ?_
          rw [hlatest] at hsome
          cases hsome
        | some snapshot =>
          constructor
          · rintro hstate - - other hother
            rw [hlatest] at hother
            cases hother
            exact hstate
          · exact fun hvisible => hvisible hsid (hsid ▸ hsession) snapshot hlatest
      · rw [if_neg hsid] at hworking
        simp only [if_neg hsid]
        exact iff_of_true (activeIsLast_of_same hactive ⟨hsnapshot, hworking⟩) fun heq => absurd heq hsid
  | createSnapshot c =>
    refine iff_of_true ?_ trivial
    cases hcall : createSnapshot rt σ.db c with
    | error =>
      rw [step, hcall]
      exact hactive
    | ok result =>
      obtain ⟨after, id⟩ := result
      have hdb := createSnapshot_ok hcall
      rw [step, hcall, committed, hdb]
      intro state hstate
      have htouch : SameStates sid { σ.db with sessionSnapshots := σ.db.sessionSnapshots ++ [c.row rt σ.db] }
          (({ σ.db with sessionSnapshots := σ.db.sessionSnapshots ++ [c.row rt σ.db] }).touchSession c.sessionId c.now) :=
        .of_tables rfl rfl
      change getActiveState (SessionDb.touchSession _ _ _) sid = state
      rw [htouch.activeState]
      by_cases hsid : c.sessionId = sid
      · rcases getActiveState_append σ.db (c.row rt σ.db) hsid with ⟨-, heq⟩ | ⟨-, heq⟩
        · rw [heq]
          exact hactive state hstate
        · rw [heq]
          change stateOf (getLatestWorkingState σ.db c.sessionId) = state
          rw [hsid]
          exact hrecorded.stateOf hstate
      · have hsame : SameStates sid σ.db { σ.db with sessionSnapshots := σ.db.sessionSnapshots ++ [c.row rt σ.db] } :=
          sameStates_append hsid
        rw [hsame.activeState]
        exact hactive state hstate
  | updateSummary u => exact iff_of_true (activeIsLast_of_same hactive sameStates_updateSummary) trivial
  | updateDerivedViews v =>
    rw [step, updateDerivedViews]
    cases hrow : v.row σ.db with
    | none =>
      refine iff_of_true hactive fun _ row hsome => ?_
      rw [hrow] at hsome
      cases hsome
    | some row =>
      obtain ⟨hrowSid, hrowState⟩ := derivedRow_spec hrow
      dsimp only
      rcases storeDerivedViews_eq σ.db row with ⟨heq, hnot⟩ | ⟨hok, heq⟩
      · rw [heq]
        refine iff_of_true hactive fun _ other hsome hinsertable => ?_
        rw [hrow] at hsome
        cases hsome
        exact absurd hinsertable hnot
      · rw [heq]
        by_cases hsid : v.sessionId = sid
        · rw [Visible, forall_prop_of_true hsid]
          simp only [hrow, Option.some.injEq, forall_eq', forall_prop_of_true hok]
          rcases getActiveState_append σ.db row (hrowSid.trans hsid) with ⟨hstays, hstate⟩ | ⟨hgone, hstate⟩
          · refine iff_of_true (fun state hlast => ?_) (.inl hstays)
            exact hstate.trans (hactive state hlast)
          · rw [or_iff_right hgone, ActiveIsLast]
            simp only [hstate, hrowState, eq_comm]
        · exact iff_of_true (activeIsLast_of_same hactive (sameStates_append (hrowSid ▸ hsid))) fun heq => absurd heq hsid

/-- **The active state is the inline state that was put last, after every call of a run, exactly
when every call is visible.** -/
theorem activeStates_iff (rt : Runtime) (sid : String) (db : SessionDb) (calls : List StateCall) :
    Guarded (step rt sid) (fun σ call => ActiveIsLast sid (step rt sid σ call)) ⟨db, none⟩ calls ↔
      Guarded (step rt sid) (Visible sid) ⟨db, none⟩ calls := by
  refine guarded_iff (I := fun σ => Recorded sid σ ∧ ActiveIsLast sid σ) ?_ ?_ ⟨?_, ?_⟩ calls
  · exact fun σ call hσ hok => ⟨recorded_step hσ.1 call, hok⟩
  · exact fun σ call hσ => activeIsLast_step_iff hσ.1 hσ.2 call
  · exact fun state hlast => nomatch hlast
  · exact fun state hlast => nomatch hlast

def snapshotRuntime : Runtime where
  uuid5Hex _ := "00000000000000000000000000000000"
  uuid5Hex_ne _ := zeroHex_ne_empty
  reprOf _ := ""
  lower := id
  redactSensitiveText := id
  parseInt _ := none
  stepTaskId _ _ := .error (.valueError "task plan start requires an active plan")

def snapshotTime : DateTime := ⟨63919965600000000, tenOClock_lt_endOfTime⟩

def sessionDb : SessionDb := committed {} (insertSession {} { sessionId := some "s", freshId := "", now := snapshotTime })

def hiddenState : List StateCall :=
  [.putWorkingState "s" none [("step", .int 1)] snapshotTime, .createSnapshot { sessionId := "s", snapshotId := "a", now := snapshotTime },
    .putWorkingState "s" none [("step", .int 2)] snapshotTime]

/-- The active state is the one of the snapshot. -/
theorem snapshot_hides_state :
    ¬ ∀ (rt : Runtime) (sid : String) (db : SessionDb) (calls : List StateCall),
      Guarded (step rt sid) (fun σ call => ActiveIsLast sid (step rt sid σ call)) ⟨db, none⟩ calls := by
  intro h
  have hguarded := h snapshotRuntime "s" sessionDb hiddenState
  have hlast : (run (step snapshotRuntime "s") ⟨sessionDb, none⟩ hiddenState).last = some [("step", .int 2)] := by
    decide +kernel
  have hactive : getActiveState (run (step snapshotRuntime "s") ⟨sessionDb, none⟩ hiddenState).db "s" = [("step", .int 1)] := by
    decide +kernel
  have hright : ActiveIsLast "s" (run (step snapshotRuntime "s") ⟨sessionDb, none⟩ hiddenState) :=
    hguarded.invariant (I := ActiveIsLast "s") (fun _ _ _ hok => hok) fun _ hnone => nomatch hnone
  have heq := hactive.symm.trans (hright _ hlast)
  exact absurd heq (by decide)

end OpenMinion.ActiveStates
