import OpenMinion.MemoryEffects

/-!
# Writes of the memory database that raise

What a failed write leaves in the tables. A transaction is rolled back, while `put` commits each of its statements; the
references to artifacts are added after the commit, in another store.
-/
namespace OpenMinion.FailedMemoryWrites
open JsonValues KeyedTables MemoryDatabase MemoryEffects MemoryStore

inductive Write where
  | put (record : MemoryRecord)
  | upsert (scope recordType key : String) (patch : RecordPatch) (call : MemoryDatabase.Call)
  | candidatePut (candidate : MemoryCandidate) (now : String)
  | promote (candidateId targetScope : String) (call : MemoryDatabase.Call)
  | supersede (oldId newId reason : String) (expectedScope : Option String) (now : String)

def Write.toOp : Write → Op
  | .put record => .put record
  | .upsert scope recordType key patch call => .upsert scope recordType key patch call
  | .candidatePut candidate now => .candidatePut candidate now
  | .promote candidateId targetScope call => .promote candidateId targetScope call
  | .supersede oldId newId reason expectedScope now => .supersede oldId newId reason expectedScope now

inductive Fault where
  | none
  /-- A statement of this number before the commit. -/
  | statement (k : ℕ)
  /-- What follows the commit: the record is read back and edges of artifacts are removed. -/
  | afterCommit

inductive Failure where
  | raised (e : DatabaseError)
  | fault

/-- The rows after the first statements of `put`: the record, its text, then its entities. -/
def putStatements (db : Database) (r : MemoryRecord) : ℕ → Database
  | 0 => db
  | 1 => { db with records := db.records ++ [storedRecord r] }
  | k + 2 => { db with
    records := db.records ++ [storedRecord r]
    fts := db.fts ++ [ftsRow r]
    entities := ((entityRows r).take k).foldl insertEntity db.entities }

section Writes

variable (env : Environment)

def performPlain (db : Database) (w : Write) : Except Failure Reply × Database :=
  ((perform env db w.toOp).1.mapError .raised, (perform env db w.toOp).2)

def performWrite (db : Database) (w : Write) : Fault → Except Failure Reply × Database
  | .none => performPlain env db w
  | .statement k =>
    match w with
    | .put r =>
      if insertFails db.records r then performPlain env db w
      else if k < 2 + r.entities.length then (.error .fault, putStatements db r k)
      else performPlain env db w
    -- the transaction is rolled back
    | _ => (.error .fault, db)
  | .afterCommit =>
    match performPlain env db w with
    | (.ok _, after) => (.error .fault, after)
    | failed => failed

/-- The four tables are the same. -/
structure SameTables (a b : Database) : Prop where
  records : a.records = b.records
  fts : a.fts = b.fts
  entities : a.entities = b.entities
  candidates : a.candidates = b.candidates

def LeavesNoTrace (db : Database) (w : Write) (fault : Fault) : Prop :=
  ∀ e, (performWrite env db w fault).1 = .error e → SameTables (performWrite env db w fault).2 db

def refused (db : Database) : Write → Bool
  | .put r => insertFails db.records r
  | .upsert scope recordType key patch call =>
    let row := findCurrentKeyedRecord db.records scope recordType key
    match upsertEvidence row patch with
    | .error _ => true
    | .ok evidence => (insertReplacing db (upsertRecord row scope recordType key patch call evidence) row call.now).isNone
  | .candidatePut c _ => regresses db.candidates c
  | .promote candidateId targetScope call =>
    match db.candidateGet candidateId with
    | none => true
    | some c => c.status ≠ "approved" || (db.insertPromotedCandidate c targetScope call).isNone
  | .supersede oldId newId reason expectedScope now =>
    oldId = newId ||
      match db.get oldId, db.get newId with
      | some old, some new =>
        !env.validScope old.scope || !env.validScope new.scope ||
          (expectedScope.any fun scope => old.scope ≠ scope || new.scope ≠ scope) ||
          (if expectedScope.isSome && alreadySuperseded env old new now then false
            else (expectedScope.isSome && (isStale env now old || isStale env now new)) || (db.supersedeRows old new reason now).isNone)
      | _, _ => true

def accepted (db : Database) : Write → Bool
  | .put r => r.isDeleted || env.refsActive r.id r.evidenceRefs
  | .upsert scope _ _ patch call => env.validScope scope && env.refsActive call.newId (patch.evidenceRefs.getD [])
  | .candidatePut c _ => env.refsActive c.candidateId c.evidenceRefs
  | .promote candidateId targetScope call =>
    (db.candidateGet candidateId).any fun c => env.validScope targetScope && env.refsActive call.newId c.evidenceRefs
  | .supersede oldId newId _ expectedScope now =>
    match db.get oldId, db.get newId with
    | some old, some new => (expectedScope.isSome && alreadySuperseded env old new now) || env.refsActive newId new.evidenceRefs
    | _, _ => false

/-- The supersession finds the rows as it leaves them. -/
structure Settled (db : Database) (old new : MemoryRecord) (reason now : String) : Prop where
  retired : ∀ r ∈ db.records, r.id = old.id → retire new.id reason (if new.createdAt = "" then now else new.createdAt) now r = r
  renewed : ∀ r ∈ db.records, r.id = new.id → renew old.id now r = r
  key : (truthy old.key && old.key ≠ new.key) = false
  fts : ∀ row ∈ db.fts, row.id ≠ old.id

def Present (db : Database) : Write → Prop
  | .candidatePut c now =>
    (∃ row ∈ db.candidates, row.candidateId = c.candidateId) ∧
      ∀ row ∈ db.candidates, row.candidateId = c.candidateId → row = storedCandidate c now
  | .supersede oldId newId reason expectedScope now =>
    ∃ old new, db.get oldId = some old ∧ db.get newId = some new ∧
      ((expectedScope.isSome && alreadySuperseded env old new now) = true ∨ Settled db old new reason now)
  | _ => False

variable {env} {db : Database}

theorem SameTables.refl (db : Database) : SameTables db db := ⟨rfl, rfl, rfl, rfl⟩

theorem not_sameTables_of_length {after : Database} (h : after.records.length = db.records.length + 1) : ¬ SameTables after db := by
  intro hsame
  rw [hsame.records] at h
  omega

theorem length_insertReplacing {r : MemoryRecord} {old : Option MemoryRecord} {now : String} {after : Database}
    (h : insertReplacing db r old now = some after) : after.records.length = db.records.length + 1 := by
  have hids := congrArg List.length (ids_insertReplacing h)
  simpa using hids

theorem get_insertReplacing {r : MemoryRecord} {old : Option MemoryRecord} {now : String} {after : Database}
    (hdeleted : r.isDeleted = old.isSome) (h : insertReplacing db r old now = some after) :
    ∃ row, after.get r.id = some row ∧ row.id = r.id ∧ row.scope = r.scope ∧ row.evidenceRefs = r.evidenceRefs ∧
      row.isDeleted = false := by
  rw [insertReplacing] at h
  split at h
  · cases h
  · next hinsert =>
    have hfresh : lookup MemoryRecord.id r.id db.records = none := by
      rw [lookup_eq_none]
      intro s hs hid
      refine hinsert ?_
      rw [insertFails, List.any_eq_true.mpr ⟨s, hs, by simpa using hid⟩, Bool.true_or, Bool.true_or, Bool.true_or]
    have hinserted : lookup MemoryRecord.id r.id (db.records ++ [r]) = some r := by
      rw [lookup] at hfresh ⊢
      rw [List.find?_append, hfresh]
      simp
    cases old with
    | none =>
      cases h
      exact ⟨r, hinserted, rfl, rfl, rfl, hdeleted⟩
    | some row =>
      obtain ⟨superseded, hsupersede, rfl⟩ := Option.map_eq_some_iff.mp h
      obtain ⟨-, rfl⟩ := applySupersession_some hsupersede
      have hretired := @lookup_updateWhere _ _ MemoryRecord.id (fun s => decide (s.id = row.id))
        (retire r.id "keyed_upsert" now now) (db.records ++ [r]) _ (fun _ _ => rfl) r.id
      have hrenewed := @lookup_updateWhere _ _ MemoryRecord.id (fun s => decide (s.id = r.id)) (renew row.id now)
        (updateWhere (fun s => s.id = row.id) (retire r.id "keyed_upsert" now now) (db.records ++ [r])) _ (fun _ _ => rfl) r.id
      rw [hretired, hinserted, Option.map_some, Option.map_some] at hrenewed
      refine ⟨_, hrenewed, ?_⟩
      by_cases hid : r.id = row.id
      · simp [hid, renew, retire]
      · simp [hid, renew]

theorem reload_cases {recordId : String} {row : MemoryRecord} (hget : db.get recordId = some row) (hshown : row.isDeleted = false) :
    ∃ result, db.reload env recordId = (result, db) ∧
      (result.isOk = (env.validScope row.scope && env.refsActive row.id row.evidenceRefs)) := by
  rw [Database.reload, hget]
  dsimp only [createRecordFromRow]
  cases hscope : env.validScope row.scope with
  | false => exact ⟨_, rfl, rfl⟩
  | true =>
    cases hrefs : env.refsActive row.id row.evidenceRefs with
    | false =>
      refine ⟨.error (.store .artifactNotFound), ?_, rfl⟩
      simp [hshown]
    | true =>
      refine ⟨.ok (.record (createRecordFromRow row)), ?_, rfl⟩
      simp [createRecordFromRow]

/-- What a call does: it is refused and changes nothing, or it commits its rows and returns when
the rest accepts them. -/
def Behaves (env : Environment) (db : Database) (w : Write) : Prop :=
  (refused env db w = true ∧ ∃ e, perform env db w.toOp = (.error e, db)) ∨
    (refused env db w = false ∧ ∃ result after, perform env db w.toOp = (result, after) ∧
      result.isOk = accepted env db w ∧ (SameTables after db ↔ Present env db w))

theorem behaves_put (r : MemoryRecord) : Behaves env db (.put r) := by
  rw [Behaves, Write.toOp, perform, refused, Database.put]
  cases hinsert : insertFails db.records r with
  | true => exact .inl ⟨rfl, _, if_pos rfl⟩
  | false =>
    refine .inr ⟨rfl, ?_⟩
    rw [if_neg Bool.false_ne_true]
    have hchanged : ¬ SameTables ({ db with records := db.records ++ [storedRecord r] }.indexRecord r) db := by
      apply not_sameTables_of_length
      simp [Database.indexRecord]
    dsimp only
    split
    · next hraised =>
      refine ⟨_, _, rfl, ?_, iff_of_false hchanged id⟩
      rw [Bool.and_eq_true, Bool.not_eq_true', Bool.not_eq_true'] at hraised
      rw [accepted, hraised.1, hraised.2]
      rfl
    · next haccepted =>
      refine ⟨_, _, rfl, ?_, iff_of_false hchanged id⟩
      rw [accepted]
      cases hdeleted : r.isDeleted with
      | true => rfl
      | false =>
        have hactive : env.refsActive r.id r.evidenceRefs = true := by simpa [hdeleted] using haccepted
        rw [hactive]
        rfl

theorem upsertEvidence_ok {row : Option MemoryRecord} {patch : RecordPatch} {evidence : List ArtifactRef}
    (h : upsertEvidence row patch = .ok evidence) : evidence = patch.evidenceRefs.getD [] := by
  rw [upsertEvidence.eq_def] at h
  cases row with
  | none =>
    cases h
    rfl
  | some row =>
    dsimp only at h
    split at h
    · cases h
      rfl
    · next hempty =>
      split at h
      · cases h
        exact (not_not.mp hempty).symm
      · cases h

theorem behaves_upsert (scope recordType key : String) (patch : RecordPatch) (call : MemoryDatabase.Call) :
    Behaves env db (.upsert scope recordType key patch call) := by
  rw [Behaves, Write.toOp, perform, refused, Database.upsert]
  cases hevidence : upsertEvidence (findCurrentKeyedRecord db.records scope recordType key) patch with
  | error e => exact .inl ⟨rfl, e, rfl⟩
  | ok evidence =>
    dsimp only
    cases hinsert : insertReplacing db (upsertRecord (findCurrentKeyedRecord db.records scope recordType key) scope recordType key patch
        call evidence) (findCurrentKeyedRecord db.records scope recordType key) call.now with
    | none => exact .inl ⟨rfl, _, rfl⟩
    | some after =>
      refine .inr ⟨rfl, ?_⟩
      obtain ⟨row, hget, hid, hscope, hrefs, hshown⟩ := get_insertReplacing rfl hinsert
      obtain ⟨result, hreload, hok⟩ := @reload_cases env after call.newId row hget hshown
      refine ⟨result, after, hreload, ?_, ?_⟩
      · rw [hok, accepted, hid, hscope, hrefs, ← upsertEvidence_ok hevidence]
        rfl
      · exact iff_of_false (not_sameTables_of_length (length_insertReplacing hinsert)) id

theorem behaves_promote (candidateId targetScope : String) (call : MemoryDatabase.Call) :
    Behaves env db (.promote candidateId targetScope call) := by
  rw [Behaves, Write.toOp, perform, refused, Database.promoteCandidate, accepted]
  cases hcandidate : db.candidateGet candidateId with
  | none => exact .inl ⟨rfl, _, rfl⟩
  | some c =>
    dsimp only
    by_cases hstatus : c.status = "approved"
    · rw [if_neg (not_not.mpr hstatus), decide_eq_false (not_not.mpr hstatus), Bool.false_or]
      cases hinsert : db.insertPromotedCandidate c targetScope call with
      | none => exact .inl ⟨rfl, _, rfl⟩
      | some after =>
        refine .inr ⟨rfl, ?_⟩
        obtain ⟨row, hget, hid, hscope, hrefs, hshown⟩ := get_insertReplacing rfl hinsert
        obtain ⟨result, hreload, hok⟩ := @reload_cases env
          (after.setCandidate candidateId fun c => { c with status := "promoted", updatedAt := call.now }) call.newId row hget hshown
        refine ⟨result, _, hreload, ?_, ?_⟩
        · rw [hok, hid, hscope, hrefs]
          rfl
        · refine iff_of_false (not_sameTables_of_length ?_) id
          have hlength : after.records.length = db.records.length + 1 := length_insertReplacing hinsert
          exact hlength
    · refine .inl ⟨?_, _, if_pos hstatus⟩
      rw [decide_eq_true hstatus, Bool.true_or]

theorem upsertRow_eq_self_iff (c : MemoryCandidate) (rows : List MemoryCandidate) :
    upsertRow MemoryCandidate.candidateId c rows = rows ↔
      (∃ row ∈ rows, row.candidateId = c.candidateId) ∧ ∀ row ∈ rows, row.candidateId = c.candidateId → row = c := by
  rw [upsertRow]
  split
  · next hany =>
    obtain ⟨row, hrow, hid⟩ := List.any_eq_true.mp hany
    rw [updateWhere_eq_self_iff]
    constructor
    · intro h
      refine ⟨⟨row, hrow, of_decide_eq_true hid⟩, ?_⟩
      intro other hother hotherid
      exact (h other hother (decide_eq_true hotherid)).symm
    · rintro ⟨-, h⟩ other hother hotherid
      exact (h other hother (of_decide_eq_true hotherid)).symm
  · next hnone =>
    refine iff_of_false ?_ ?_
    · intro h
      have hlength := congrArg List.length h
      simp at hlength
    · rintro ⟨⟨row, hrow, hid⟩, -⟩
      exact hnone (List.any_eq_true.mpr ⟨row, hrow, decide_eq_true hid⟩)

theorem behaves_candidatePut (c : MemoryCandidate) (now : String) : Behaves env db (.candidatePut c now) := by
  rw [Behaves, Write.toOp, perform, refused, Database.candidatePut, accepted, Present]
  cases hregresses : regresses db.candidates c with
  | true => exact .inl ⟨rfl, _, if_pos rfl⟩
  | false =>
    refine .inr ⟨rfl, ?_⟩
    rw [if_neg Bool.false_ne_true]
    have hsame : SameTables { db with candidates := upsertRow MemoryCandidate.candidateId (storedCandidate c now) db.candidates } db ↔
        (∃ row ∈ db.candidates, row.candidateId = c.candidateId) ∧
          ∀ row ∈ db.candidates, row.candidateId = c.candidateId → row = storedCandidate c now := by
      have hself := upsertRow_eq_self_iff (storedCandidate c now) db.candidates
      exact ⟨fun h => hself.mp h.candidates, fun h => ⟨rfl, rfl, rfl, hself.mpr h⟩⟩
    dsimp only
    cases hrefs : env.refsActive c.candidateId c.evidenceRefs with
    | true => exact ⟨_, _, if_pos rfl, rfl, hsame⟩
    | false => exact ⟨_, _, if_neg Bool.false_ne_true, rfl, hsame⟩

theorem sameTables_supersedeRows {old new : MemoryRecord} {reason now : String} {after : Database} (hne : old.id ≠ new.id)
    (hnew : new ∈ db.records) (h : db.supersedeRows old new reason now = some after) :
    SameTables after db ↔ Settled db old new reason now := by
  obtain ⟨-, hrecords, -⟩ := supersedeRows_spec hne h
  rw [Database.supersedeRows] at h
  obtain ⟨superseded, hsupersede, hinherit⟩ := Option.bind_eq_some_iff.mp h
  obtain ⟨-, hafter⟩ := applySupersession_some hsupersede
  rw [Database.inheritKey] at hinherit
  -- the two updates concern different rows, so that both leave the table as it is
  have hboth : after.records = db.records ↔
      (∀ r ∈ db.records, r.id = old.id → retire new.id reason (if new.createdAt = "" then now else new.createdAt) now r = r) ∧
        ∀ r ∈ db.records, r.id = new.id → renewKeyed old new now r = r := by
    rw [hrecords, updateWhere_twice_eq_self_iff]
    · simp only [decide_eq_true_eq]
    · intro r hid
      have hother : r.id ≠ new.id := fun heq => hne ((of_decide_eq_true hid).symm.trans heq)
      exact ⟨decide_eq_false hother, decide_eq_false hother⟩
  by_cases hkey : (truthy old.key && old.key ≠ new.key) = true
  · -- the new row takes another key
    refine iff_of_false ?_ ?_
    · intro hsame
      have hrenewed := (hboth.mp hsame.records).2 new hnew rfl
      rw [renewKeyed, if_pos hkey] at hrenewed
      rw [Bool.and_eq_true, decide_eq_true_eq] at hkey
      have hkeys := congrArg MemoryRecord.key hrenewed
      exact hkey.2 hkeys
    · intro hsettled
      rw [hsettled.key] at hkey
      cases hkey
  · rw [if_neg hkey] at hinherit
    cases hinherit
    have hrenew : renewKeyed old new now = renew old.id now := by
      funext r
      rw [renewKeyed, if_neg hkey]
    rw [hrenew] at hboth
    have hfts : after.fts = db.fts ↔ ∀ row ∈ db.fts, row.id ≠ old.id := by
      rw [hafter, deleteWhere, List.filter_eq_self]
      simp
    constructor
    · intro hsame
      obtain ⟨hretire, hrenewed⟩ := hboth.mp hsame.records
      exact ⟨hretire, hrenewed, Bool.eq_false_iff.mpr hkey, hfts.mp hsame.fts⟩
    · intro hsettled
      refine ⟨hboth.mpr ⟨hsettled.retired, hsettled.renewed⟩, hfts.mpr hsettled.fts, ?_, ?_⟩
      · rw [hafter]
      · rw [hafter]

theorem get_supersedeRows {old new : MemoryRecord} {reason now : String} {after : Database} (hne : old.id ≠ new.id)
    (hnew : db.get new.id = some new) (h : db.supersedeRows old new reason now = some after) :
    ∃ row, after.get new.id = some row ∧ row.id = new.id ∧ row.evidenceRefs = new.evidenceRefs := by
  obtain ⟨-, hrecords, -⟩ := supersedeRows_spec hne h
  have hretired := @lookup_updateWhere _ _ MemoryRecord.id (fun s => decide (s.id = old.id))
    (retire new.id reason (if new.createdAt = "" then now else new.createdAt) now) db.records _ (fun _ _ => rfl) new.id
  have hother : ¬ decide (new.id = old.id) = true := by simpa using hne.symm
  rw [show lookup MemoryRecord.id new.id db.records = some new from hnew, Option.map_some, if_neg hother] at hretired
  have hkept : ∀ r, (renewKeyed old new now r).id = r.id ∧ (renewKeyed old new now r).evidenceRefs = r.evidenceRefs := by
    intro r
    rw [renewKeyed]
    split
    · exact ⟨rfl, rfl⟩
    · exact ⟨rfl, rfl⟩
  have hrenewed := @lookup_updateWhere _ _ MemoryRecord.id (fun s => decide (s.id = new.id)) (renewKeyed old new now)
    (updateWhere (fun s => s.id = old.id) (retire new.id reason (if new.createdAt = "" then now else new.createdAt) now) db.records)
    _ (fun r _ => (hkept r).1) new.id
  rw [hretired, Option.map_some, if_pos (decide_eq_true rfl), ← hrecords] at hrenewed
  exact ⟨_, hrenewed, (hkept new).1, (hkept new).2⟩

theorem behaves_supersede (oldId newId reason : String) (expectedScope : Option String) (now : String) :
    Behaves env db (.supersede oldId newId reason expectedScope now) := by
  rw [Behaves, Write.toOp, perform, refused, Database.supersedeByContradiction]
  by_cases hne : oldId = newId
  · refine .inl ⟨?_, _, if_pos hne⟩
    rw [decide_eq_true hne, Bool.true_or]
  rw [if_neg hne, decide_eq_false hne, Bool.false_or]
  cases hold : db.get oldId with
  | none =>
    refine .inl ⟨rfl, ?_⟩
    cases db.get newId with
    | none => exact ⟨_, rfl⟩
    | some new => exact ⟨_, rfl⟩
  | some old =>
    cases hnew : db.get newId with
    | none => exact .inl ⟨rfl, _, rfl⟩
    | some new =>
      obtain ⟨-, rfl⟩ := mem_of_get hold
      obtain ⟨hnewmem, rfl⟩ := mem_of_get hnew
      have hpresent : Present env db (.supersede old.id new.id reason expectedScope now) ↔
          ((expectedScope.isSome && alreadySuperseded env old new now) = true ∨ Settled db old new reason now) := by
        simp [Present, hold, hnew]
      rw [hpresent, accepted, hold, hnew]
      dsimp only
      by_cases hscope : (!env.validScope old.scope || !env.validScope new.scope) = true
      · refine .inl ⟨?_, _, if_pos hscope⟩
        rw [hscope, Bool.true_or, Bool.true_or]
      rw [if_neg hscope, Bool.eq_false_iff.mpr hscope, Bool.false_or]
      by_cases hexpected : (expectedScope.any fun scope => old.scope ≠ scope || new.scope ≠ scope) = true
      · refine .inl ⟨?_, _, if_pos hexpected⟩
        rw [hexpected, Bool.true_or]
      rw [if_neg hexpected, Bool.eq_false_iff.mpr hexpected, Bool.false_or]
      by_cases halready : (expectedScope.isSome && alreadySuperseded env old new now) = true
      · rw [if_pos halready, if_pos halready, halready]
        exact .inr ⟨rfl, _, _, rfl, rfl, iff_of_true (.refl db) (.inl rfl)⟩
      rw [if_neg halready, if_neg halready, Bool.eq_false_iff.mpr halready, Bool.false_or]
      by_cases hstale : (expectedScope.isSome && (isStale env now old || isStale env now new)) = true
      · refine .inl ⟨?_, _, if_pos hstale⟩
        rw [hstale, Bool.true_or]
      rw [if_neg hstale, Bool.eq_false_iff.mpr hstale, Bool.false_or]
      cases hrows : db.supersedeRows old new reason now with
      | none => exact .inl ⟨rfl, _, rfl⟩
      | some after =>
        obtain ⟨row, hget, hid, hrefs⟩ := get_supersedeRows hne hnew hrows
        have hsame := sameTables_supersedeRows hne hnewmem hrows
        refine .inr ⟨rfl, ?_⟩
        dsimp only
        rw [hget]
        have hread : env.refsActive (createRecordFromRow row).id (createRecordFromRow row).evidenceRefs =
            env.refsActive new.id new.evidenceRefs := by
          rw [← hid, ← hrefs]
          rfl
        dsimp only
        rw [hread]
        have hsettled : SameTables after db ↔ (false = true ∨ Settled db old new reason now) := by simpa using hsame
        cases hactive : env.refsActive new.id new.evidenceRefs with
        | true => exact ⟨_, _, if_pos rfl, rfl, hsettled⟩
        | false => exact ⟨_, _, if_neg Bool.false_ne_true, rfl, hsettled⟩

theorem behaves (env : Environment) (db : Database) (w : Write) : Behaves env db w := by
  cases w with
  | put r => exact behaves_put r
  | upsert scope recordType key patch call => exact behaves_upsert scope recordType key patch call
  | candidatePut c now => exact behaves_candidatePut c now
  | promote candidateId targetScope call => exact behaves_promote candidateId targetScope call
  | supersede oldId newId reason expectedScope now => exact behaves_supersede oldId newId reason expectedScope now

def Traceless (env : Environment) (db : Database) (w : Write) : Fault → Prop
  | .none => refused env db w = true ∨ accepted env db w = true ∨ Present env db w
  | .afterCommit => refused env db w = true ∨ Present env db w
  | .statement k =>
    match w with
    | .put r => k = 0 ∨ refused env db w = true ∨ (2 + r.entities.length ≤ k ∧ accepted env db w = true)
    | _ => True

theorem performPlain_error_iff {w : Write} : (∃ e, (performPlain env db w).1 = .error e) ↔ (perform env db w.toOp).1.isOk = false := by
  rw [performPlain]
  cases (perform env db w.toOp).1 with
  | error e => simp [Except.mapError, Except.isOk, Except.toBool]
  | ok reply => simp [Except.mapError, Except.isOk, Except.toBool]

theorem plain_traceless_iff (w : Write) :
    ((∃ e, (performPlain env db w).1 = .error e) → SameTables (performPlain env db w).2 db) ↔
      (refused env db w = true ∨ accepted env db w = true ∨ Present env db w) := by
  rw [performPlain_error_iff]
  obtain ⟨hrefused, e, heq⟩ | ⟨hrefused, result, after, heq, hok, hsame⟩ := behaves env db w
  · refine iff_of_true (fun _ => ?_) (.inl hrefused)
    rw [performPlain, heq]
    exact .refl db
  · rw [performPlain, heq, hrefused, hok]
    change (accepted env db w = false → SameTables after db) ↔ _
    rw [hsame]
    cases accepted env db w with
    | true => simp
    | false => simp

/-- A write that raises leaves no trace exactly when nothing raises behind a commit that changes
the tables. -/
theorem leavesNoTrace_iff (env : Environment) (db : Database) (w : Write) (fault : Fault) :
    LeavesNoTrace env db w fault ↔ Traceless env db w fault := by
  have hexists : LeavesNoTrace env db w fault ↔
      ((∃ e, (performWrite env db w fault).1 = .error e) → SameTables (performWrite env db w fault).2 db) :=
    ⟨fun h ⟨e, he⟩ => h e he, fun h e he => h ⟨e, he⟩⟩
  rw [hexists]
  cases fault with
  | none => exact plain_traceless_iff w
  | afterCommit =>
    rw [Traceless]
    obtain ⟨hrefused, e, heq⟩ | ⟨hrefused, result, after, heq, -, hsame⟩ := behaves env db w
    · refine iff_of_true (fun _ => ?_) (.inl hrefused)
      rw [performWrite, performPlain, heq]
      exact .refl db
    · have hafter : (performWrite env db w .afterCommit).2 = after ∧ ∃ e, (performWrite env db w .afterCommit).1 = .error e := by
        rw [performWrite, performPlain, heq]
        cases result with
        | error e => exact ⟨rfl, _, rfl⟩
        | ok reply => exact ⟨rfl, _, rfl⟩
      rw [hafter.1, hrefused, hsame]
      exact ⟨fun h => .inr (h hafter.2), fun h _ => h.resolve_left Bool.false_ne_true⟩
  | statement k =>
    cases w with
    | put r =>
      rw [Traceless, performWrite]
      by_cases hinsert : insertFails db.records r = true
      · rw [if_pos hinsert]
        refine iff_of_true ?_ (.inr (.inl hinsert))
        exact (plain_traceless_iff (.put r)).mpr (.inl hinsert)
      · rw [if_neg hinsert]
        by_cases hk : k < 2 + r.entities.length
        · rw [if_pos hk]
          have hzero : SameTables (putStatements db r k) db ↔ k = 0 := by
            cases k with
            | zero => exact iff_of_true (.refl db) rfl
            | succ k =>
              refine iff_of_false (not_sameTables_of_length ?_) (Nat.succ_ne_zero k)
              cases k with
              | zero => simp [putStatements]
              | succ k => simp [putStatements]
          dsimp only
          rw [hzero]
          constructor
          · exact fun h => .inl (h ⟨_, rfl⟩)
          · rintro (hk0 | hrefused | ⟨hle, -⟩) -
            · exact hk0
            · exact absurd hrefused hinsert
            · omega
        · rw [if_neg hk, plain_traceless_iff]
          constructor
          · rintro (hrefused | haccepted | hpresent)
            · exact .inr (.inl hrefused)
            · exact .inr (.inr ⟨not_lt.mp hk, haccepted⟩)
            · exact absurd hpresent id
          · rintro (hk0 | hrefused | ⟨-, haccepted⟩)
            · omega
            · exact .inl hrefused
            · exact .inr (.inl haccepted)
    | upsert scope recordType key patch call => exact iff_of_true (fun _ => .refl db) trivial
    | candidatePut c now => exact iff_of_true (fun _ => .refl db) trivial
    | promote candidateId targetScope call => exact iff_of_true (fun _ => .refl db) trivial
    | supersede oldId newId reason expectedScope now => exact iff_of_true (fun _ => .refl db) trivial

/-- A record whose evidence names an artifact that is not active: the call raises, and its rows
are in the tables. -/
theorem inactive_evidence_leaves_rows :
    let env : Environment := { permissive with refsActive := fun _ _ => false }
    let record : MemoryRecord := { note "r" with evidenceRefs := [⟨"sha", "text/plain", "sha", 1, none⟩], entities := ["e"] }
    ¬ LeavesNoTrace env {} (.put record) .none := by
  intro env record h
  have hsame := h (.raised (.store .artifactNotFound)) (by rfl)
  exact absurd hsame.records (by decide)

end Writes

end OpenMinion.FailedMemoryWrites
