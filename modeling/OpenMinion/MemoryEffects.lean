import Mathlib.Data.List.Dedup
import Mathlib.Logic.Relation
import OpenMinion.MemoryDatabase
import OpenMinion.TransitionRuns

/-!
# What the calls do to the records and their index

Every call of the memory database is a chain of a few effects on the table of records and on
the full-text index. An invariant of the two tables is checked effect by effect.
-/
namespace OpenMinion.MemoryEffects
open KeyedTables MemoryDatabase MemoryStore Relation TransitionRuns

/-- The columns of a record that name it, its key and its links. -/
structure Kept (r s : MemoryRecord) : Prop where
  id : s.id = r.id
  scope : s.scope = r.scope
  recordType : s.recordType = r.recordType
  key : s.key = r.key
  supersedesId : s.supersedesId = r.supersedesId
  supersededById : s.supersededById = r.supersededById

theorem Kept.refl (r : MemoryRecord) : Kept r r := ⟨rfl, rfl, rfl, rfl, rfl, rfl⟩

/-- The row that a supersession makes of the new record. -/
structure Renewed (oldId : String) (r s : MemoryRecord) : Prop where
  id : s.id = r.id
  scope : s.scope = r.scope
  recordType : s.recordType = r.recordType
  supersedesId : s.supersedesId = some oldId
  supersededById : s.supersededById = none
  isDeleted : s.isDeleted = false

def Unlinked (r : MemoryRecord) : Prop := r.supersedesId = none ∧ r.supersededById = none

/-- One effect on the two tables: `A` is assumed of the records of a supersession and `B` of a
record that is put. -/
inductive Effect (A : Database → MemoryRecord → MemoryRecord → Prop) (B : MemoryRecord → Prop) : Database → Database → Prop where
  | aside {db db' : Database} (hrecords : db'.records = db.records) (hfts : db'.fts = db.fts) : Effect A B db db'
  | refresh {db db' : Database} (p : MemoryRecord → Bool) (g : MemoryRecord → MemoryRecord)
      (hg : ∀ r, Kept r (g r) ∧ (g r).isDeleted = r.isDeleted) (hrecords : db'.records = updateWhere p g db.records)
      (hfts : db'.fts = db.fts) : Effect A B db db'
  | hide {db db' : Database} (p : MemoryRecord → Bool) (g : MemoryRecord → MemoryRecord) (q : String → Bool)
      (hg : ∀ r, Kept r (g r) ∧ (g r).isDeleted = true) (hpq : ∀ r ∈ db.records, p r = true → q r.id = true)
      (hqp : ∀ r ∈ db.records, q r.id = true → ∃ s ∈ db.records, p s = true ∧ s.id = r.id)
      (hrecords : db'.records = updateWhere p g db.records) (hfts : db'.fts = deleteWhere (fun row => q row.id) db.fts) :
      Effect A B db db'
  | insert {db db' : Database} (r : MemoryRecord) (hB : B r) (hinsert : insertFails db.records r = false)
      (hrecords : db'.records = db.records ++ [r]) (hfts : db'.fts = db.fts ++ [ftsRow r]) : Effect A B db db'
  | replace {db db' : Database} (old r : MemoryRecord) (reason validTo now : String) (hold : old ∈ db.records)
      (hactive : isActive old = true) (hscope : old.scope = r.scope) (htype : old.recordType = r.recordType)
      (hkey : old.key = r.key) (hfresh : ∀ s ∈ db.records, s.id ≠ r.id)
      (hrecords : db'.records =
        updateWhere (fun s => s.id = old.id) (retire r.id reason validTo now) db.records ++ [renew old.id now r])
      (hfts : db'.fts = deleteWhere (fun row => row.id = old.id) db.fts ++ [ftsRow r]) : Effect A B db db'
  | supersede {db db' : Database} (old new : MemoryRecord) (reason validTo now : String) (g : MemoryRecord → MemoryRecord)
      (hA : A db old new) (hold : old ∈ db.records) (hnew : new ∈ db.records) (hne : old.id ≠ new.id)
      (hg : ∀ r, Renewed old.id r (g r))
      (hclash : ∀ r ∈ db.records, r.id = new.id →
        keyClash (updateWhere (fun s => s.id = old.id) (retire new.id reason validTo now) db.records) (g r) = false)
      (hrecords : db'.records = updateWhere (fun s => s.id = new.id) g
        (updateWhere (fun s => s.id = old.id) (retire new.id reason validTo now) db.records))
      (hfts : db'.fts.map FtsRow.id = (deleteWhere (fun row => row.id = old.id) db.fts).map FtsRow.id) : Effect A B db db'
  | purge {db db' : Database} (ids : List String) (hfree : ∀ id ∈ ids, isProtected db.records id = false)
      (hrecords : db'.records = deleteWhere (fun r => r.id ∈ ids) (db.records.map (unlink ids)))
      (hfts : db'.fts = deleteWhere (fun row => row.id ∈ ids) db.fts) : Effect A B db db'

variable {A : Database → MemoryRecord → MemoryRecord → Prop} {B : MemoryRecord → Prop} {db : Database}

abbrev Effects (A : Database → MemoryRecord → MemoryRecord → Prop) (B : MemoryRecord → Prop) := ReflTransGen (Effect A B)

theorem effects_invariant {I : Database → Prop} (hstep : ∀ db db', I db → Effect A B db db' → I db') {db' : Database}
    (h : Effects A B db db') (hI : I db) : I db' := by
  induction h with
  | refl => exact hI
  | tail _ heffect ih => exact hstep _ _ ih heffect

theorem effects_foldl {Item : Type} {body : Database → Item → Database} (hbody : ∀ db item, Effects A B db (body db item))
    (items : List Item) : Effects A B db (items.foldl body db) :=
  run_invariant (I := Effects A B db) (fun t item ht => ht.trans (hbody t item)) .refl items

theorem findCurrentKeyedRecord_some {rows : List MemoryRecord} {scope recordType key : String} {r : MemoryRecord}
    (h : findCurrentKeyedRecord rows scope recordType key = some r) :
    r ∈ rows ∧ isActive r = true ∧ r.scope = scope ∧ r.recordType = recordType ∧ r.key = some key := by
  have hfound := List.find?_some h
  simp only [Bool.and_eq_true, decide_eq_true_eq] at hfound
  exact ⟨List.mem_of_find?_eq_some h, by tauto, by tauto, by tauto, by tauto⟩

theorem fresh_of_insertFails {rows : List MemoryRecord} {r : MemoryRecord} (h : insertFails rows r = false) :
    ∀ s ∈ rows, s.id ≠ r.id := by
  simp only [insertFails, Bool.or_eq_false_iff, List.any_eq_false, decide_eq_true_eq] at h
  exact h.1.1.1

theorem keyClash_of_insertFails {rows : List MemoryRecord} {r : MemoryRecord} (h : insertFails rows r = false) :
    keyClash rows r = false := by
  simp only [insertFails, Bool.or_eq_false_iff] at h
  exact h.1.1.2

/-- A row that a record takes the place of: active, with its key. -/
structure Replaces (db : Database) (r old : MemoryRecord) : Prop where
  mem : old ∈ db.records
  active : isActive old = true
  scope : old.scope = r.scope
  recordType : old.recordType = r.recordType
  key : old.key = r.key

theorem applySupersession_inserted {r old : MemoryRecord} {reason validTo now : String} {after : Database}
    (hfresh : ∀ s ∈ db.records, s.id ≠ r.id) (hold : old ∈ db.records)
    (h : applySupersession { db with records := db.records ++ [r] } old.id r.id reason validTo now = some after) :
    after.records = updateWhere (fun s => s.id = old.id) (retire r.id reason validTo now) db.records ++ [renew old.id now r] ∧
      after.fts = deleteWhere (fun row => row.id = old.id) db.fts := by
  have hne : r.id ≠ old.id := (hfresh old hold).symm
  have hothers : ∀ s ∈ updateWhere (fun s => s.id = old.id) (retire r.id reason validTo now) db.records,
      decide (s.id = r.id) = false := by
    intro s hs
    obtain ⟨t, ht, rfl⟩ := mem_updateWhere.mp hs
    split
    · exact decide_eq_false (hfresh t ht)
    · exact decide_eq_false (hfresh t ht)
  rw [applySupersession] at h
  dsimp only at h
  split at h
  · cases h
  · cases h
    refine ⟨?_, rfl⟩
    dsimp only
    rw [updateWhere_append, updateWhere_append, updateWhere_eq_self _ hothers]
    simp [updateWhere, hne]

theorem insertReplacing_effects {r : MemoryRecord} {old : Option MemoryRecord} {now : String} {after : Database}
    (hB : Unlinked r → r.isDeleted = false → B r) (hlinks : r.supersedesId = old.map (·.id) ∧ r.supersededById = none)
    (hdeleted : r.isDeleted = old.isSome) (hold : ∀ row ∈ old, Replaces db r row)
    (h : insertReplacing db r old now = some after) : Effects A B db after := by
  rw [insertReplacing] at h
  split at h
  · cases h
  · next hinsert =>
    have hinsert' := Bool.eq_false_iff.mpr hinsert
    cases old with
    | none =>
      cases h
      exact .single (.insert r (hB hlinks hdeleted) hinsert' rfl rfl)
    | some row =>
      obtain ⟨hmem, hactive, hscope, htype, hkey⟩ := hold row rfl
      have hfresh := fresh_of_insertFails hinsert'
      obtain ⟨superseded, hsupersede, rfl⟩ := Option.map_eq_some_iff.mp h
      obtain ⟨hrecords, hfts⟩ := applySupersession_inserted hfresh hmem hsupersede
      refine .single (.replace row r "keyed_upsert" now now hmem hactive hscope htype hkey hfresh hrecords ?_)
      rw [Database.indexRecord, hfts]

theorem keyClash_updateWhere {rows : List MemoryRecord} {id : String} {f : MemoryRecord → MemoryRecord} {r : MemoryRecord}
    (hf : ∀ s, (f s).id = s.id) (hr : r.id = id) : keyClash (updateWhere (fun s => s.id = id) f rows) r = keyClash rows r := by
  rw [keyClash, keyClash, updateWhere, List.any_map]
  congr 1
  apply List.any_congr rfl
  intro s
  rw [Function.comp_apply]
  by_cases hs : s.id = id
  · simp [hs, hf, hr]
  · rw [if_neg (by simpa using hs)]

theorem mem_of_get {recordId : String} {r : MemoryRecord} (h : db.get recordId = some r) : r ∈ db.records ∧ r.id = recordId :=
  lookup_some h

def renewKeyed (old new : MemoryRecord) (now : String) (r : MemoryRecord) : MemoryRecord :=
  let renewed := renew old.id now r
  if truthy old.key && old.key ≠ new.key then { renewed with key := old.key, updatedAt := now } else renewed

theorem renewKeyed_renewed (old new : MemoryRecord) (now : String) (r : MemoryRecord) :
    Renewed old.id r (renewKeyed old new now r) := by
  rw [renewKeyed]
  split
  · exact ⟨rfl, rfl, rfl, rfl, rfl, rfl⟩
  · exact ⟨rfl, rfl, rfl, rfl, rfl, rfl⟩

theorem applySupersession_some {oldId newId reason validTo now : String} {after : Database}
    (h : applySupersession db oldId newId reason validTo now = some after) :
    (∀ r ∈ updateWhere (fun s => s.id = oldId) (retire newId reason validTo now) db.records, r.id = newId →
        keyClash (updateWhere (fun s => s.id = oldId) (retire newId reason validTo now) db.records) (renew oldId now r) = false) ∧
      after = { db with
        records := updateWhere (fun r => r.id = newId) (renew oldId now)
          (updateWhere (fun r => r.id = oldId) (retire newId reason validTo now) db.records)
        fts := deleteWhere (fun row => row.id = oldId) db.fts } := by
  rw [applySupersession] at h
  split at h
  · cases h
  · next hclash =>
    cases h
    refine ⟨?_, rfl⟩
    intro r hr hid
    rw [List.any_eq_true] at hclash
    by_contra hkey
    exact hclash ⟨r, hr, by simp [hid, Bool.of_not_eq_false hkey]⟩

theorem ids_insertReplacing {r : MemoryRecord} {old : Option MemoryRecord} {now : String} {after : Database}
    (h : insertReplacing db r old now = some after) :
    after.records.map MemoryRecord.id = db.records.map MemoryRecord.id ++ [r.id] := by
  rw [insertReplacing] at h
  split at h
  · cases h
  · cases old with
    | none =>
      cases h
      exact List.map_append
    | some row =>
      obtain ⟨superseded, hsupersede, rfl⟩ := Option.map_eq_some_iff.mp h
      obtain ⟨-, rfl⟩ := applySupersession_some hsupersede
      have hretired := @map_key_updateWhere _ _ MemoryRecord.id (fun s => decide (s.id = row.id))
        (retire r.id "keyed_upsert" now now) (db.records ++ [r]) fun _ _ => rfl
      have hrenewed := @map_key_updateWhere _ _ MemoryRecord.id (fun s => decide (s.id = r.id)) (renew row.id now)
        (updateWhere (fun s => s.id = row.id) (retire r.id "keyed_upsert" now now) (db.records ++ [r])) fun _ _ => rfl
      exact hrenewed.trans (hretired.trans List.map_append)

theorem mem_retired {oldId newId reason validTo now : String} (hne : oldId ≠ newId) {r : MemoryRecord} (hr : r ∈ db.records)
    (hid : r.id = newId) : r ∈ updateWhere (fun s => s.id = oldId) (retire newId reason validTo now) db.records := by
  refine mem_updateWhere.mpr ⟨r, hr, ?_⟩
  rw [if_neg]
  simpa [hid] using hne.symm

theorem supersedeRows_spec {old new : MemoryRecord} {reason now : String} {after : Database} (hne : old.id ≠ new.id)
    (h : db.supersedeRows old new reason now = some after) :
    let validTo := if new.createdAt = "" then now else new.createdAt
    let retired := updateWhere (fun s => s.id = old.id) (retire new.id reason validTo now) db.records
    (∀ r ∈ db.records, r.id = new.id → keyClash retired (renewKeyed old new now r) = false) ∧
      after.records = updateWhere (fun s => s.id = new.id) (renewKeyed old new now) retired ∧
      after.fts.map FtsRow.id = (deleteWhere (fun row => row.id = old.id) db.fts).map FtsRow.id := by
  intro validTo retired
  rw [Database.supersedeRows] at h
  obtain ⟨superseded, hsupersede, hinherit⟩ := Option.bind_eq_some_iff.mp h
  obtain ⟨hclash, hafter⟩ := applySupersession_some hsupersede
  rw [Database.inheritKey] at hinherit
  by_cases hkey : (truthy old.key && old.key ≠ new.key) = true
  · rw [if_pos hkey] at hinherit
    split at hinherit
    · cases hinherit
    · next hfree =>
      cases hinherit
      rw [List.any_eq_true] at hfree
      have hrecords : superseded.records = updateWhere (fun s => s.id = new.id) (renew old.id now) retired := by rw [hafter]
      refine ⟨?_, ?_, ?_⟩
      · intro r hr hid
        have hrenewed : renew old.id now r ∈ superseded.records := by
          rw [hrecords]
          exact mem_updateWhere.mpr ⟨r, mem_retired hne hr hid, if_pos (by simpa using hid)⟩
        have hclear : keyClash superseded.records { renew old.id now r with key := old.key } = false := by
          by_contra hclash
          refine hfree ⟨_, hrenewed, ?_⟩
          rw [Bool.of_not_eq_false hclash, Bool.and_true]
          exact decide_eq_true hid
        have hid' : ({ renew old.id now r with key := old.key } : MemoryRecord).id = new.id := hid
        rw [hrecords, keyClash_updateWhere (f := renew old.id now) (fun _ => rfl) hid'] at hclear
        rw [renewKeyed]
        simp only [hkey, if_true]
        exact hclear
      · have hg : renewKeyed old new now = fun r => { renew old.id now r with key := old.key, updatedAt := now } := by
          funext r
          rw [renewKeyed]
          simp only [hkey, if_true]
        dsimp only
        rw [hrecords, updateWhere_updateWhere (p := fun s : MemoryRecord => s.id = new.id) (g := renew old.id now) fun _ hr => hr, hg]
      · dsimp only
        rw [map_key_updateWhere (f := fun row : FtsRow => { row with key := old.key }) fun _ _ => rfl, hafter]
  · rw [if_neg hkey] at hinherit
    cases hinherit
    have hg : renewKeyed old new now = renew old.id now := by
      funext r
      rw [renewKeyed]
      simp only [hkey, Bool.false_eq_true, if_false]
    refine ⟨?_, ?_, ?_⟩
    · intro r hr hid
      rw [hg]
      exact hclash r (mem_retired hne hr hid) hid
    · rw [hg, hafter]
    · rw [hafter]

section Calls

variable (env : Environment)

def supersession (db : Database) : Op → Option (MemoryRecord × MemoryRecord)
  | .supersede oldId newId reason expectedScope now =>
    if oldId = newId then none
    else
      match db.get oldId, db.get newId with
      | some old, some new =>
        if expectedScope.any fun scope => old.scope ≠ scope || new.scope ≠ scope then none
        else if expectedScope.isSome && alreadySuperseded env old new now then none
        else if expectedScope.isSome && (isStale env now old || isStale env now new) then none
        else (db.supersedeRows old new reason now).map fun _ => (old, new)
      | _, _ => none
  | _ => none

def Allowed (A : Database → MemoryRecord → MemoryRecord → Prop) (B : MemoryRecord → Prop) (db : Database) (op : Op) : Prop :=
  (∀ pair ∈ supersession env db op, A db pair.1 pair.2) ∧ ∀ r, op = .put r → B r

theorem records_reload (recordId : String) : (db.reload env recordId).2 = db := by
  rw [Database.reload]
  split
  · rfl
  · dsimp only
    split
    · rfl
    · split <;> rfl

theorem put_effects {r : MemoryRecord} (hB : B r) (hstored : B r → B (storedRecord r)) : Effects A B db (db.put env r).2 := by
  rw [Database.put]
  split
  · exact .refl
  · next hinsert =>
    have heffect : Effect A B db ({ db with records := db.records ++ [storedRecord r] }.indexRecord r) :=
      .insert (storedRecord r) (hstored hB) (Bool.eq_false_iff.mpr hinsert) rfl rfl
    dsimp only
    split
    · exact .single heffect
    · exact .single heffect

theorem upsert_effects (hB : ∀ r, Unlinked r → r.isDeleted = false → B r) (scope recordType key : String) (patch : RecordPatch)
    (call : MemoryDatabase.Call) : Effects A B db (db.upsert env scope recordType key patch call).2 := by
  rw [Database.upsert]
  split
  · exact .refl
  · next evidence _ =>
    split
    · exact .refl
    · next after hinsert =>
      rw [records_reload]
      refine insertReplacing_effects (hB _) ⟨rfl, rfl⟩ rfl ?_ hinsert
      intro row hrow
      obtain ⟨hmem, hactive, hscope, htype, hkey⟩ := findCurrentKeyedRecord_some hrow
      exact ⟨hmem, hactive, hscope, htype, hkey⟩

theorem insertPromotedCandidate_effects (hB : ∀ r, Unlinked r → r.isDeleted = false → B r) {c : MemoryCandidate} {targetScope : String}
    {call : MemoryDatabase.Call} {after : Database} (h : db.insertPromotedCandidate c targetScope call = some after) : Effects A B db after := by
  rw [Database.insertPromotedCandidate] at h
  refine insertReplacing_effects (hB _) ⟨rfl, rfl⟩ rfl ?_ h
  intro row hrow
  rw [findTargetKeyCollision] at hrow
  split at hrow
  · next htruthy =>
    obtain ⟨hmem, hactive, hscope, htype, hkey⟩ := findCurrentKeyedRecord_some hrow
    refine ⟨hmem, hactive, hscope, htype, ?_⟩
    rw [hkey]
    cases hc : c.key with
    | none => simp [truthy, hc] at htruthy
    | some key => simp [promotedRecord, hc]
  · cases hrow

theorem setCandidate_effect (candidateId : String) (f : MemoryCandidate → MemoryCandidate) :
    Effect A B db (db.setCandidate candidateId f) := .aside rfl rfl

theorem promote_effects (hB : ∀ r, Unlinked r → r.isDeleted = false → B r) (candidateId targetScope : String)
    (call : MemoryDatabase.Call) : Effects A B db (db.promoteCandidate env candidateId targetScope call).2 := by
  rw [Database.promoteCandidate]
  split
  · exact .refl
  · split
    · exact .refl
    · split
      · exact .refl
      · next after hinsert =>
        rw [records_reload]
        exact (insertPromotedCandidate_effects hB hinsert).tail (setCandidate_effect candidateId _)

theorem consolidate_effects (hB : ∀ r, Unlinked r → r.isDeleted = false → B r) (candidate : MemoryCandidate)
    (action targetScope : String) (review : Option JsonValues.Json) (metadata : Metadata) (call : MemoryDatabase.Call) :
    Effects A B db (db.applyConsolidationDecision env candidate action targetScope review metadata call).2 := by
  rw [Database.applyConsolidationDecision]
  split
  · exact .refl
  · split
    · exact .refl
    · split
      · exact .refl
      · split
        · exact .refl
        · dsimp only
          split
          · split
            · exact .refl
            · next after hinsert =>
              rw [records_reload]
              exact (insertPromotedCandidate_effects hB hinsert).tail (setCandidate_effect _ _)
          · split
            · exact .single (setCandidate_effect _ _)
            · exact .single (setCandidate_effect _ _)

theorem supersede_cases (db : Database) (oldId newId reason : String) (expectedScope : Option String) (now : String) :
    step env db (.supersede oldId newId reason expectedScope now) = db ∨
      ∃ old new after, supersession env db (.supersede oldId newId reason expectedScope now) = some (old, new) ∧
        old ∈ db.records ∧ new ∈ db.records ∧ old.id = oldId ∧ new.id = newId ∧ oldId ≠ newId ∧
        db.supersedeRows old new reason now = some after ∧
        step env db (.supersede oldId newId reason expectedScope now) = after := by
  rw [step, perform, Database.supersedeByContradiction, supersession]
  split
  · exact .inl rfl
  · next hne =>
    split
    · exact .inl rfl
    · exact .inl rfl
    · next old new hold hnew =>
      rw [hold, hnew]
      dsimp only
      split
      · exact .inl rfl
      split
      · exact .inl rfl
      split
      · exact .inl rfl
      split
      · exact .inl rfl
      obtain ⟨holdmem, holdid⟩ := mem_of_get hold
      obtain ⟨hnewmem, hnewid⟩ := mem_of_get hnew
      split
      · exact .inl rfl
      · next after hrows =>
        split
        · exact .inl rfl
        · have hpair : (db.supersedeRows old new reason now).map (fun _ => (old, new)) = some (old, new) := by
            rw [hrows]
            rfl
          split
          · exact .inr ⟨old, new, after, hpair, holdmem, hnewmem, holdid, hnewid, hne, hrows, rfl⟩
          · exact .inr ⟨old, new, after, hpair, holdmem, hnewmem, holdid, hnewid, hne, hrows, rfl⟩

theorem supersede_effects {oldId newId reason : String} {expectedScope : Option String} {now : String}
    (hA : ∀ pair ∈ supersession env db (.supersede oldId newId reason expectedScope now), A db pair.1 pair.2) :
    Effects A B db (step env db (.supersede oldId newId reason expectedScope now)) := by
  obtain hsame | ⟨old, new, after, hpair, hold, hnew, rfl, rfl, hne, hrows, hafter⟩ :=
    supersede_cases env db oldId newId reason expectedScope now
  · rw [hsame]
  · obtain ⟨hclash, hrecords, hfts⟩ := supersedeRows_spec hne hrows
    rw [hafter]
    exact .single (.supersede old new reason _ now _ (hA _ hpair) hold hnew hne (renewKeyed_renewed old new now) hclash hrecords hfts)

theorem softDelete_effect (recordId now reason : String) : Effect A B db (db.softDelete recordId now reason) := by
  refine .hide (fun r => r.id = recordId) _ (fun id => id = recordId) ?_ ?_ ?_ rfl rfl
  · intro r
    exact ⟨⟨rfl, rfl, rfl, rfl, rfl, rfl⟩, rfl⟩
  · intro r _ hid
    exact hid
  · intro r hr hid
    exact ⟨r, hr, hid, rfl⟩

theorem delete_effect (recordId : String) (reason deletedAt : Option String) (now : String) :
    Effect A B db (db.delete recordId reason deletedAt now).2 := by
  refine .hide (fun r => r.id = recordId) _ (fun id => id = recordId) ?_ ?_ ?_ rfl rfl
  · intro r
    exact ⟨⟨rfl, rfl, rfl, rfl, rfl, rfl⟩, rfl⟩
  · intro r _ hid
    exact hid
  · intro r hr hid
    exact ⟨r, hr, hid, rfl⟩

theorem tombstone_effect (scope recordType key now : String) : Effect A B db (db.tombstone scope recordType key now).2 := by
  refine .hide (tombstoned scope recordType key) _
    (fun id => id ∈ (db.records.filter (tombstoned scope recordType key)).map (·.id)) ?_ ?_ ?_ rfl rfl
  · intro r
    exact ⟨⟨rfl, rfl, rfl, rfl, rfl, rfl⟩, rfl⟩
  · intro r hr htomb
    exact decide_eq_true (List.mem_map.mpr ⟨r, List.mem_filter.mpr ⟨hr, htomb⟩, rfl⟩)
  · intro r _ hid
    obtain ⟨s, hs, hsid⟩ := List.mem_map.mp (of_decide_eq_true hid)
    obtain ⟨hmem, htomb⟩ := List.mem_filter.mp hs
    exact ⟨s, hmem, htomb, hsid⟩

theorem invalidate_effects (recordId validTo now : String) : Effects A B db (db.invalidate env recordId validTo now).2 := by
  rw [Database.invalidate]
  split
  · exact .refl
  · refine .single (.refresh (fun r => r.id = recordId) _ ?_ rfl rfl)
    intro r
    exact ⟨⟨rfl, rfl, rfl, rfl, rfl, rfl⟩, rfl⟩

theorem decayRow_effects (decayed : MemoryRecord → Option ℚ) (minConfidence : ℚ) (now : String) (db : Database) (r : MemoryRecord) :
    Effects A B db (decayRow decayed minConfidence now db r) := by
  rw [decayRow]
  split
  · exact .refl
  · next confidence _ =>
    have hupdate : Effect A B db { db with
        records := updateWhere (fun row => row.id = r.id) (fun row => { row with confidence, updatedAt := now }) db.records } := by
      refine .refresh (fun row => row.id = r.id) _ ?_ rfl rfl
      intro row
      exact ⟨⟨rfl, rfl, rfl, rfl, rfl, rfl⟩, rfl⟩
    dsimp only
    split
    · exact .tail (.single hupdate) (softDelete_effect r.id now _)
    · exact .single hupdate

theorem purge_effect (now : String) (batchSize : ℕ) : Effect A B db (db.purgeSoftDeleted now batchSize).2 := by
  refine .purge (purgeableIds db.records now batchSize) ?_ rfl rfl
  intro id hid
  rw [purgeableIds, List.mem_dedup, List.mem_map] at hid
  obtain ⟨r, hr, rfl⟩ := hid
  obtain hr | hr := List.mem_append.mp hr
  · have hdead := (List.mem_filter.mp (List.mem_of_mem_take hr)).2
    simp only [Bool.and_eq_true, Bool.not_eq_true'] at hdead
    exact hdead.2
  · have hexpired := (List.mem_filter.mp (List.mem_of_mem_take hr)).2
    simp only [Bool.and_eq_true, Bool.not_eq_true'] at hexpired
    exact hexpired.2

theorem putRelation_effect (r : MemoryRelation) : Effect A B db (db.putRelation r).2 := by
  have hrecords : (db.toStore.putRelation r).1.records = db.records := by
    rw [Store.putRelation]
    split_ifs <;> rfl
  rw [Database.putRelation]
  split
  · exact .aside rfl rfl
  · next heq =>
    rw [heq] at hrecords
    exact .aside hrecords rfl

theorem candidatePut_effect (c : MemoryCandidate) (now : String) : Effect A B db (db.candidatePut env c now).2 := by
  rw [Database.candidatePut]
  split
  · exact .aside rfl rfl
  · dsimp only
    split
    · exact .aside rfl rfl
    · exact .aside rfl rfl

theorem candidateUpdate_effect (candidateId : String) (patch : CandidatePatch) (now : String) :
    Effect A B db (db.candidateUpdate env candidateId patch now).2 := by
  rw [Database.candidateUpdate]
  split
  · exact .aside rfl rfl
  · dsimp only
    split
    · exact .aside rfl rfl
    · split
      · exact .aside rfl rfl
      · exact .aside rfl rfl

theorem step_effects (hB : ∀ r, Unlinked r → r.isDeleted = false → B r) (hstored : ∀ r, B r → B (storedRecord r)) {op : Op}
    (h : Allowed env A B db op) : Effects A B db (step env db op) := by
  cases op with
  | put r => exact put_effects env (h.2 r rfl) (hstored r)
  | upsert scope recordType key patch call => exact upsert_effects env hB scope recordType key patch call
  | delete recordId reason deletedAt now => exact .single (delete_effect recordId reason deletedAt now)
  | tombstone scope recordType key now => exact .single (tombstone_effect scope recordType key now)
  | invalidate recordId validTo now => exact invalidate_effects env recordId validTo now
  | supersede oldId newId reason expectedScope now => exact supersede_effects env h.1
  | candidatePut c now => exact .single (candidatePut_effect env c now)
  | candidateUpdate candidateId patch now => exact .single (candidateUpdate_effect env candidateId patch now)
  | promote candidateId targetScope call => exact promote_effects env hB candidateId targetScope call
  | consolidate candidate action targetScope review metadata call =>
    exact consolidate_effects env hB candidate action targetScope review metadata call
  | putRelation r => exact .single (putRelation_effect r)
  | evict maxRecords exempt now =>
    apply effects_foldl
    intro db scope
    apply effects_foldl
    intro db id
    exact .single (softDelete_effect id now _)
  | decay decayed minConfidence now =>
    apply effects_foldl
    exact decayRow_effects decayed minConfidence now
  | purge now batchSize => exact .single (purge_effect now batchSize)

end Calls
end OpenMinion.MemoryEffects
