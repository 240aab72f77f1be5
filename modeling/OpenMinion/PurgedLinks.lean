import OpenMinion.MemoryEffects

/-!
# Links after a purge

`purge_soft_deleted` collects deleted and expired rows without those that a live row links to, cuts the links of the
deleted rows to what it removes and then removes the rows.
-/
namespace OpenMinion.PurgedLinks
open KeyedTables MemoryStore MemoryDatabase MemoryEffects

/-- `LIMIT ?` with the batch size; a negative limit is none. -/
def rowLimit (rows : List MemoryRecord) (batchSize : ℤ) : ℕ := if batchSize < 0 then rows.length else batchSize.toNat

/-- `purge_soft_deleted` at a time, with a batch size. -/
def purge (db : Database) (now : String) (batchSize : ℤ) : Database :=
  (db.purgeSoftDeleted now (rowLimit db.records batchSize)).2

def LinksTo (r : MemoryRecord) (id : String) : Prop := r.supersedesId = some id ∨ r.supersededById = some id

/-- The end of the life of the record is before the time, as the texts of the times compare. -/
def Expired (now : String) (r : MemoryRecord) : Prop := ∃ t, r.expiresAt = some t ∧ t < now

def Present (db : Database) (id : String) : Prop := ∃ r ∈ db.records, r.id = id

/-- A record of the first state has the id and none of the second. -/
def Purged (before after : Database) (id : String) : Prop := Present before id ∧ ¬ Present after id

/-- The purge removes records that nothing needs, and leaves no trace of them. -/
structure CleanPurge (now : String) (before after : Database) : Prop where
  links : ∀ r ∈ after.records, ∀ id, LinksTo r id → ¬ Purged before after id
  relations : ∀ r ∈ after.relations, ¬ Purged before after r.sourceRecordId ∧ ¬ Purged before after r.targetRecordId
  transitions : ∀ t ∈ after.tierTransitions, ¬ Purged before after t.recordId
  live : ∀ r ∈ before.records, r.isDeleted = false → ¬ Expired now r → r ∈ after.records
  named : ∀ r ∈ after.records, r.isDeleted = false → ∀ id, LinksTo r id → Present before id → Present after id

variable {db : Database} {now : String} {ids : List String} {batchSize : ℕ}

theorem linksTo_of_isProtected {rows : List MemoryRecord} {id : String} (h : isProtected rows id = false)
    {r : MemoryRecord} (hr : r ∈ rows) (hlive : r.isDeleted = false) : ¬ LinksTo r id := by
  intro hlinks
  have hnone := List.any_eq_false.mp h r hr
  apply hnone
  rw [hlive]
  cases hlinks with
  | inl hsupersedes => simp [hsupersedes]
  | inr hsuperseded => simp [hsuperseded]

theorem mem_purgeableIds {rows : List MemoryRecord} {id : String} (h : id ∈ purgeableIds rows now batchSize) :
    ∃ r ∈ rows, r.id = id ∧ (r.isDeleted = true ∨ Expired now r) ∧ isProtected rows id = false := by
  rw [purgeableIds, List.mem_dedup, List.mem_map] at h
  obtain ⟨r, hr, rfl⟩ := h
  obtain hdead | hexpired := List.mem_append.mp hr
  · have hr := List.mem_filter.mp (List.mem_of_mem_take hdead)
    rw [Bool.and_eq_true, Bool.not_eq_true'] at hr
    exact ⟨r, hr.1, rfl, .inl hr.2.1, hr.2.2⟩
  · have hr := List.mem_filter.mp (List.mem_of_mem_take hexpired)
    rw [Bool.and_eq_true, Bool.and_eq_true, Bool.not_eq_true', Bool.not_eq_true'] at hr
    have hpast : Expired now r := by
      simpa [Expired, Option.any_eq_true] using hr.2.1.1
    exact ⟨r, hr.1, rfl, .inr hpast, hr.2.2⟩

@[simp] theorem unlink_id (r : MemoryRecord) : (unlink ids r).id = r.id := by
  rw [unlink]
  split <;> rfl

theorem unlink_live {r : MemoryRecord} (hlive : r.isDeleted = false) (hid : r.id ∉ ids) : unlink ids r = r := by
  rw [unlink, if_neg]
  simp [hlive, hid]

theorem linksTo_unlink {r : MemoryRecord} (hunlinked : r.isDeleted = true ∨ r.id ∈ ids) {id : String}
    (h : LinksTo (unlink ids r) id) : LinksTo r id ∧ id ∉ ids := by
  rw [unlink, if_pos (by simpa using hunlinked)] at h
  cases h with
  | inl hsupersedes =>
    obtain ⟨hlink, hout⟩ := Option.filter_eq_some_iff.mp hsupersedes
    exact ⟨.inl hlink, by simpa using hout⟩
  | inr hsuperseded =>
    obtain ⟨hlink, hout⟩ := Option.filter_eq_some_iff.mp hsuperseded
    exact ⟨.inr hlink, by simpa using hout⟩

theorem mem_records_purge {r : MemoryRecord} : r ∈ (db.purgeSoftDeleted now batchSize).2.records ↔
    ∃ old ∈ db.records, old.id ∉ purgeableIds db.records now batchSize ∧
      r = unlink (purgeableIds db.records now batchSize) old := by
  rw [Database.purgeSoftDeleted, deleteWhere, List.mem_filter, List.mem_map]
  constructor
  · rintro ⟨⟨old, hold, rfl⟩, hout⟩
    refine ⟨old, hold, ?_, rfl⟩
    simpa using hout
  · rintro ⟨old, hold, hout, rfl⟩
    refine ⟨⟨old, hold, rfl⟩, ?_⟩
    simpa using hout

theorem present_purge {id : String} : Present (db.purgeSoftDeleted now batchSize).2 id ↔
    Present db id ∧ id ∉ purgeableIds db.records now batchSize := by
  constructor
  · rintro ⟨r, hr, rfl⟩
    obtain ⟨old, hold, hout, rfl⟩ := mem_records_purge.mp hr
    rw [unlink_id]
    exact ⟨⟨old, hold, rfl⟩, hout⟩
  · rintro ⟨⟨old, hold, rfl⟩, hout⟩
    exact ⟨_, mem_records_purge.mpr ⟨old, hold, hout, rfl⟩, unlink_id old⟩

theorem purged_iff {id : String} : Purged db (db.purgeSoftDeleted now batchSize).2 id ↔
    id ∈ purgeableIds db.records now batchSize := by
  rw [Purged, present_purge]
  constructor
  · rintro ⟨hbefore, hafter⟩
    by_contra hout
    exact hafter ⟨hbefore, hout⟩
  · intro hid
    obtain ⟨r, hr, hrid, -⟩ := mem_purgeableIds hid
    exact ⟨⟨r, hr, hrid⟩, fun hafter => hafter.2 hid⟩

/-- No row that remains links to a collected id: a deleted row was unlinked, and a live one protects
what it links to. -/
theorem linksTo_purge {r : MemoryRecord} (hr : r ∈ (db.purgeSoftDeleted now batchSize).2.records) {id : String}
    (hlink : LinksTo r id) : id ∉ purgeableIds db.records now batchSize := by
  obtain ⟨old, hold, hout, rfl⟩ := mem_records_purge.mp hr
  cases hdeleted : old.isDeleted with
  | true => exact (linksTo_unlink (.inl hdeleted) hlink).2
  | false =>
    rw [unlink_live hdeleted hout] at hlink
    intro hid
    obtain ⟨-, -, -, -, hfree⟩ := mem_purgeableIds hid
    exact linksTo_of_isProtected hfree hold hdeleted hlink

theorem live_not_collected (hids : UniqueKey (·.id) db.records) {r : MemoryRecord} (hr : r ∈ db.records)
    (hlive : r.isDeleted = false) (hexpired : ¬ Expired now r) : r.id ∉ purgeableIds db.records now batchSize := by
  intro hid
  obtain ⟨s, hs, hsid, hdead, -⟩ := mem_purgeableIds hid
  obtain rfl : s = r := hids.eq_of_key_eq hs hr hsid
  cases hdead with
  | inl hdeleted => exact absurd hdeleted (by simp [hlive])
  | inr hpast => exact hexpired hpast

/-- A purge at any time and with any batch size leaves no dangling links. -/
theorem purge_clean (db : Database) (now : String) (batchSize : ℤ) (hids : UniqueKey (·.id) db.records) :
    CleanPurge now db (purge db now batchSize) := by
  constructor
  case links =>
    intro r hr id hlink hpurged
    exact linksTo_purge hr hlink (purged_iff.mp hpurged)
  case relations =>
    intro r hr
    have hout := (List.mem_filter.mp hr).2
    rw [Bool.not_eq_true', Bool.or_eq_false_iff, decide_eq_false_iff_not, decide_eq_false_iff_not] at hout
    exact ⟨fun h => hout.1 (purged_iff.mp h), fun h => hout.2 (purged_iff.mp h)⟩
  case transitions =>
    intro t ht hpurged
    have hout := (List.mem_filter.mp ht).2
    rw [Bool.not_eq_true', decide_eq_false_iff_not] at hout
    exact hout (purged_iff.mp hpurged)
  case live =>
    intro r hr hlive hexpired
    have hout : r.id ∉ purgeableIds db.records now (rowLimit db.records batchSize) := live_not_collected hids hr hlive hexpired
    exact mem_records_purge.mpr ⟨r, hr, hout, (unlink_live hlive hout).symm⟩
  case named =>
    intro r hr hlive id hlink hbefore
    exact present_purge.mpr ⟨hbefore, linksTo_purge hr hlink⟩

def linkedRecords : Database :=
  { records := [
      { note "a" with expiresAt := some "1", supersededById := some "b" },
      { note "b" with supersedesId := some "a" },
      { note "c" with isDeleted := true }] }

theorem purge_clean_linked : CleanPurge "2" linkedRecords (purge linkedRecords "2" 500) :=
  purge_clean linkedRecords "2" 500 (by unfold UniqueKey linkedRecords; decide)

end OpenMinion.PurgedLinks
