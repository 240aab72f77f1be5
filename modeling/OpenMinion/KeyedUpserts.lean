import OpenMinion.SupersessionChains

/-!
# What a keyed upsert keeps

`upsert` of a key that an active record has builds the new row from the old one and the patch. It keeps what the patch
does not name but for two columns: the references are not written again, and the goal is not written.
-/
namespace OpenMinion.KeyedUpserts
open JsonValues KeyedTables MemoryDatabase MemoryEffects MemoryStore SupersessionChains

/-- The record after the patch agrees with the one before on what the patch does not name. -/
structure Agrees (patch : RecordPatch) (before after : MemoryRecord) : Prop where
  title : patch.title = none → after.title = before.title
  tags : patch.tags = none → after.tags = before.tags
  entities : patch.entities = none → after.entities = before.entities
  source : patch.source = none → after.source = before.source
  confidence : patch.confidence = none → after.confidence = before.confidence
  evidenceRefs : patch.evidenceRefs = none → after.evidenceRefs = before.evidenceRefs
  metadata : patch.metadata = none → after.metadata = before.metadata
  expiresAt : patch.expiresAt = none → after.expiresAt = before.expiresAt
  recordNamespace : patch.recordNamespace = none → after.recordNamespace = before.recordNamespace
  goalId : patch.goalId = none → after.goalId = before.goalId
  content : patch.content = none → after.content = before.content
  contentKeys : ∀ d e, before.content = .dict d → patch.content = some (.dict e) →
    ∃ c, after.content = .dict c ∧ ∀ key, Dict.has e key = false → Dict.has c key = Dict.has d key ∧ Dict.get c key = Dict.get d key

/-- The upsert returns, and the active record of the key is a new one that agrees with the old. -/
def KeepsTheRest (env : Environment) (db : Database) (before : MemoryRecord) (scope recordType key : String)
    (patch : RecordPatch) (call : Call) : Prop :=
  let outcome := db.upsert env scope recordType key patch call
  (∃ record, outcome.1 = .ok (.record record)) ∧
    ∃ after, findCurrentKeyedRecord outcome.2.records scope recordType key = some after ∧ after.id = call.newId ∧
      Agrees patch before after

/-- The upsert does not need what it loses, and its row is accepted. -/
structure Fits (env : Environment) (before : MemoryRecord) (scope : String) (patch : RecordPatch) (call : Call) : Prop where
  evidenceRefs : before.evidenceRefs = [] ∨ patch.evidenceRefs.getD [] ≠ []
  goalId : patch.goalId = none → before.goalId = none
  scope : env.validScope scope = true
  artifacts : env.refsActive call.newId (patch.evidenceRefs.getD []) = true

theorem has_set_of_ne {key other : String} (h : key ≠ other) (d : Dict) (value : Json) :
    Dict.has (Dict.set d other value) key = Dict.has d key := by
  rw [Bool.eq_iff_iff, has_eq_true_iff, has_eq_true_iff, keys_set]
  split
  · rfl
  · simp [h]

theorem updateDict_of_not_has (d : Dict) {e : Dict} {key : String} (h : Dict.has e key = false) :
    Dict.has (updateDict d e) key = Dict.has d key ∧ Dict.get (updateDict d e) key = Dict.get d key := by
  induction e generalizing d with
  | nil => exact ⟨rfl, rfl⟩
  | cons item e ih =>
    rw [Dict.has, List.any_cons, Bool.or_eq_false_iff, beq_eq_false_iff_ne] at h
    obtain ⟨hhas, hget⟩ := ih (Dict.set d item.1 item.2) h.2
    have hset : updateDict d (item :: e) = updateDict (Dict.set d item.1 item.2) e := rfl
    rw [hset, hhas, hget, has_set_of_ne h.1.symm, Dict.get_set_of_ne h.1]
    exact ⟨rfl, rfl⟩

theorem mergedContent_none (content : Json) : mergedContent content none = content := by
  cases content <;> rfl

theorem mergedContent_dict (d e : Dict) : mergedContent (.dict d) (some (.dict e)) = .dict (updateDict d e) := rfl

variable {env : Environment} {db : Database} {before : MemoryRecord} {scope recordType key : String} {patch : RecordPatch}
  {call : Call}

theorem agrees_upsertRecord_iff (evidence : List ArtifactRef) :
    Agrees patch before (renew before.id call.now (upsertRecord (some before) scope recordType key patch call evidence)) ↔
      (patch.evidenceRefs = none → evidence = before.evidenceRefs) ∧ (patch.goalId = none → before.goalId = none) := by
  constructor
  · intro h
    exact ⟨h.evidenceRefs, fun hgoal => (h.goalId hgoal).symm⟩
  · rintro ⟨hevidence, hgoal⟩
    constructor
    case evidenceRefs => exact hevidence
    case goalId => exact fun hnone => (hgoal hnone).symm
    case content =>
      intro hnone
      rw [renew, upsertRecord]
      dsimp only
      rw [hnone, mergedContent_none]
    case contentKeys =>
      intro d e hd he
      refine ⟨updateDict d e, ?_, fun name hname => updateDict_of_not_has d hname⟩
      rw [renew, upsertRecord]
      dsimp only
      rw [hd, he, mergedContent_dict]
    all_goals
      intro hnone
      simp [renew, upsertRecord, hnone]

theorem insertFails_upsertRecord (hfresh : ∀ s ∈ db.records, s.id ≠ call.newId) (hold : before ∈ db.records)
    (evidence : List ArtifactRef) :
    insertFails db.records (upsertRecord (some before) scope recordType key patch call evidence) = false := by
  simp only [insertFails, Bool.or_eq_false_iff]
  refine ⟨⟨⟨?_, ?_⟩, ?_⟩, rfl⟩
  · rw [List.any_eq_false]
    intro s hs
    rw [decide_eq_true_eq]
    exact hfresh s hs
  · simp [keyClash, upsertRecord, isActive]
  · simp only [missing, upsertRecord, Option.map_some, Bool.and_eq_false_iff, Bool.not_eq_false']
    exact .inr (List.any_eq_true.mpr ⟨before, hold, by simp⟩)

theorem not_active_of_retired (hkeys : ∀ r ∈ db.records, ∀ s ∈ db.records, SameKey r s → r = s)
    (hrow : findCurrentKeyedRecord db.records scope recordType key = some before) {newId reason validTo now : String}
    {r : MemoryRecord} (hr : r ∈ updateWhere (fun s => s.id = before.id) (retire newId reason validTo now) db.records) :
    ¬ (isActive r = true ∧ r.scope = scope ∧ r.recordType = recordType ∧ r.key = some key) := by
  rintro ⟨hactive, hscope, htype, hkey⟩
  obtain ⟨hmem, hactive', hscope', htype', hkey'⟩ := findCurrentKeyedRecord_some hrow
  obtain ⟨s, hs, rfl⟩ := mem_updateWhere.mp hr
  split at hactive
  · cases hactive
  · next hid =>
    rw [if_neg hid] at hscope htype hkey
    have hsame : SameKey s before := ⟨hactive, hactive', hscope.trans hscope'.symm, htype.trans htype'.symm, by rw [hkey]; rfl,
      hkey.trans hkey'.symm⟩
    rw [hkeys s hs before hmem hsame] at hid
    simp at hid

theorem keyClash_renewed (hkeys : ∀ r ∈ db.records, ∀ s ∈ db.records, SameKey r s → r = s)
    (hrow : findCurrentKeyedRecord db.records scope recordType key = some before) (hfresh : ∀ s ∈ db.records, s.id ≠ call.newId)
    (evidence : List ArtifactRef) :
    let record := upsertRecord (some before) scope recordType key patch call evidence
    keyClash (updateWhere (fun s => s.id = before.id) (retire record.id "keyed_upsert" call.now call.now) (db.records ++ [record]))
      (renew before.id call.now record) = false := by
  intro record
  have hne : call.newId ≠ before.id := (hfresh before (findCurrentKeyedRecord_some hrow).1).symm
  rw [keyClash, updateWhere_append, List.any_append, Bool.and_eq_false_iff, Bool.or_eq_false_iff]
  right
  constructor
  · rw [List.any_eq_false]
    intro r hr hclash
    simp only [Bool.and_eq_true, decide_eq_true_eq] at hclash
    exact not_active_of_retired hkeys hrow hr ⟨hclash.1.1.1.2, hclash.1.1.2, hclash.1.2, hclash.2⟩
  · simp [updateWhere, record, upsertRecord, renew, hne]

theorem insertReplacing_upsertRecord (hkeys : ∀ r ∈ db.records, ∀ s ∈ db.records, SameKey r s → r = s)
    (hrow : findCurrentKeyedRecord db.records scope recordType key = some before) (hfresh : ∀ s ∈ db.records, s.id ≠ call.newId)
    (evidence : List ArtifactRef) :
    let record := upsertRecord (some before) scope recordType key patch call evidence
    ∃ after, insertReplacing db record (some before) call.now = some after ∧
      after.get call.newId = some (renew before.id call.now record) ∧
      findCurrentKeyedRecord after.records scope recordType key = some (renew before.id call.now record) := by
  intro record
  have hold := (findCurrentKeyedRecord_some hrow).1
  have hinsert : insertFails db.records record = false := insertFails_upsertRecord hfresh hold evidence
  have hclash := @keyClash_renewed db before scope recordType key patch call hkeys hrow hfresh evidence
  have hne : call.newId ≠ before.id := (hfresh before hold).symm
  obtain ⟨superseded, hsupersede⟩ : ∃ superseded, applySupersession { db with records := db.records ++ [record] } before.id record.id
      "keyed_upsert" call.now call.now = some superseded := by
    rw [applySupersession]
    dsimp only
    rw [if_neg]
    · exact ⟨_, rfl⟩
    · rw [Bool.not_eq_true, List.any_eq_false]
      intro r hr hboth
      rw [Bool.and_eq_true, decide_eq_true_eq] at hboth
      obtain ⟨s, hs, rfl⟩ := mem_updateWhere.mp hr
      obtain hs | hs := List.mem_append.mp hs
      · have hid : s.id ≠ record.id := hfresh s hs
        split at hboth
        · exact hid hboth.1
        · exact hid hboth.1
      · rw [List.mem_singleton] at hs
        rw [hs, if_neg (by simpa [record, upsertRecord] using hne)] at hboth
        exact Bool.false_ne_true (hclash.symm.trans hboth.2)
  obtain ⟨hrecords, -⟩ := applySupersession_inserted hfresh hold hsupersede
  refine ⟨superseded.indexRecord record, ?_, ?_, ?_⟩
  · rw [insertReplacing, if_neg (by simp [hinsert])]
    dsimp only
    rw [hsupersede]
    rfl
  · have hget : (superseded.indexRecord record).get call.newId = lookup MemoryRecord.id call.newId superseded.records := rfl
    rw [hget, hrecords, lookup, List.find?_append, List.find?_eq_none.mpr]
    · simp [record, upsertRecord, renew]
    · intro r hr hid
      obtain ⟨s, hs, rfl⟩ := mem_updateWhere.mp hr
      rw [decide_eq_true_eq] at hid
      have hsid := hfresh s hs
      split at hid
      · exact hsid hid
      · exact hsid hid
  · have hfind : (superseded.indexRecord record).records = superseded.records := rfl
    rw [hfind, hrecords, findCurrentKeyedRecord, List.find?_append, List.find?_eq_none.mpr]
    · simp [record, upsertRecord, renew, isActive]
    · intro r hr hactive
      simp only [Bool.and_eq_true, decide_eq_true_eq] at hactive
      exact not_active_of_retired hkeys hrow hr ⟨hactive.1.1.1, hactive.1.1.2, hactive.1.2, hactive.2⟩

theorem upsertEvidence_some :
    upsertEvidence (some before) patch =
      if before.evidenceRefs = [] ∨ patch.evidenceRefs.getD [] ≠ [] then .ok (patch.evidenceRefs.getD [])
      else .error .unreadableEvidence := by
  rw [upsertEvidence]
  by_cases hnamed : patch.evidenceRefs.getD [] = []
  · by_cases hempty : before.evidenceRefs = []
    · simp [hnamed, hempty]
    · simp [hnamed, hempty]
  · simp [hnamed]

theorem upsert_spec (hkeys : ∀ r ∈ db.records, ∀ s ∈ db.records, SameKey r s → r = s)
    (hrow : findCurrentKeyedRecord db.records scope recordType key = some before) (hfresh : ∀ s ∈ db.records, s.id ≠ call.newId) :
    (before.evidenceRefs ≠ [] ∧ patch.evidenceRefs.getD [] = [] ∧
        db.upsert env scope recordType key patch call = (.error .unreadableEvidence, db)) ∨
      ((before.evidenceRefs = [] ∨ patch.evidenceRefs.getD [] ≠ []) ∧
        let new := renew before.id call.now
          (upsertRecord (some before) scope recordType key patch call (patch.evidenceRefs.getD []))
        findCurrentKeyedRecord (db.upsert env scope recordType key patch call).2.records scope recordType key = some new ∧
          ((∃ record, (db.upsert env scope recordType key patch call).1 = .ok (.record record)) ↔
            env.validScope scope = true ∧ env.refsActive call.newId (patch.evidenceRefs.getD []) = true)) := by
  rw [Database.upsert, hrow, upsertEvidence_some]
  by_cases hreadable : before.evidenceRefs = [] ∨ patch.evidenceRefs.getD [] ≠ []
  · right
    refine ⟨hreadable, ?_⟩
    obtain ⟨after, hinsert, hget, hfound⟩ := @insertReplacing_upsertRecord db before scope recordType key patch call
      hkeys hrow hfresh (patch.evidenceRefs.getD [])
    rw [if_pos hreadable]
    dsimp only
    rw [hinsert]
    dsimp only
    rw [Database.reload, hget]
    dsimp only [createRecordFromRow, renew, upsertRecord]
    cases hscope : env.validScope scope with
    | false => exact ⟨hfound, by simp⟩
    | true =>
      cases hactive : env.refsActive call.newId (patch.evidenceRefs.getD []) with
      | false => exact ⟨hfound, by simp⟩
      | true => exact ⟨hfound, by simp⟩
  · left
    rw [if_neg hreadable]
    obtain ⟨hrefs, hnamed⟩ := not_or.mp hreadable
    exact ⟨hrefs, not_not.mp hnamed, rfl⟩

/-- The upsert keeps the rest of an active record exactly when the patch names the goal and brings references wherever
the record has them, and the store accepts the row. -/
theorem upsert_keepsTheRest_iff (hkeys : ∀ r ∈ db.records, ∀ s ∈ db.records, SameKey r s → r = s)
    (hrow : findCurrentKeyedRecord db.records scope recordType key = some before) (hfresh : ∀ s ∈ db.records, s.id ≠ call.newId) :
    KeepsTheRest env db before scope recordType key patch call ↔ Fits env before scope patch call := by
  obtain ⟨hrefs, hnamed, houtcome⟩ | ⟨hreadable, hfound, hreturns⟩ :=
    @upsert_spec env db before scope recordType key patch call hkeys hrow hfresh
  · constructor
    · rintro ⟨⟨record, hok⟩, -⟩
      rw [houtcome] at hok
      cases hok
    · intro h
      obtain hempty | hsome := h.evidenceRefs
      · exact absurd hempty hrefs
      · exact absurd hnamed hsome
  · have hagrees := @agrees_upsertRecord_iff before scope recordType key patch call (patch.evidenceRefs.getD [])
    constructor
    · rintro ⟨hok, after, hafter, -, hkept⟩
      obtain ⟨hscope, hactive⟩ := hreturns.mp hok
      rw [hfound] at hafter
      cases hafter
      exact ⟨hreadable, (hagrees.mp hkept).2, hscope, hactive⟩
    · intro h
      refine ⟨hreturns.mpr ⟨h.scope, h.artifacts⟩, _, hfound, rfl, hagrees.mpr ⟨?_, h.goalId⟩⟩
      intro hnone
      rw [hnone] at hreadable ⊢
      exact (hreadable.resolve_right (by simp)).symm

/-- A note without references, whose title is patched. -/
theorem upsert_keepsTheRest_note :
    KeepsTheRest permissive { records := [note "a" (some "k")] } (note "a" (some "k")) "agent:a" "fact" "k"
      { title := some (some "t") } ⟨"t1", "b"⟩ := by
  refine (upsert_keepsTheRest_iff ?_ (by decide +kernel) (by decide +kernel)).mpr ⟨.inl rfl, fun _ => rfl, rfl, rfl⟩
  intro r hr s hs _
  rw [List.mem_singleton] at hr hs
  rw [hr, hs]

/-- A note with a reference that the patch does not name: the upsert raises. -/
theorem upsert_of_evidence_raises :
    let before : MemoryRecord := { note "a" (some "k") with evidenceRefs := [⟨"r", "text/plain", "h", 1, none⟩] }
    findCurrentKeyedRecord [before] "agent:a" "fact" "k" = some before ∧
      ¬ KeepsTheRest permissive { records := [before] } before "agent:a" "fact" "k" { title := some (some "t") } ⟨"t1", "b"⟩ := by
  intro before
  refine ⟨by decide +kernel, ?_⟩
  rintro ⟨⟨record, hok⟩, -⟩
  have hraised : (Database.upsert permissive { records := [before] } "agent:a" "fact" "k" { title := some (some "t") }
      ⟨"t1", "b"⟩).1 = .error .unreadableEvidence := by decide +kernel
  rw [hraised] at hok
  cases hok

end OpenMinion.KeyedUpserts
