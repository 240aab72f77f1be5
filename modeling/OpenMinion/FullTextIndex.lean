import OpenMinion.MemoryEffects

/-!
# The full-text index

`memory_fts` is maintained by hand beside the table of records. A record that is hidden loses
its row there; a supersession that brings a hidden record back does not give it a new one.
-/
namespace OpenMinion.FullTextIndex
open KeyedTables MemoryDatabase MemoryEffects MemoryStore TransitionRuns

def Live (rows : List MemoryRecord) (id : String) : Prop := ∃ r ∈ rows, r.id = id ∧ r.isDeleted = false

/-- The ids in the index are those of the records that are not deleted, each once. -/
structure Follows (db : Database) : Prop where
  once : (db.fts.map FtsRow.id).Nodup
  exact : ∀ id, id ∈ db.fts.map FtsRow.id ↔ Live db.records id

/-- With the key of the table of records. -/
structure Indexed (db : Database) : Prop extends Follows db where
  ids : UniqueKey MemoryRecord.id db.records

theorem Indexed.empty : Indexed {} := by
  refine ⟨⟨List.nodup_nil, ?_⟩, .nil⟩
  intro id
  constructor
  · intro h
    cases h
  · rintro ⟨r, hr, -⟩
    cases hr

variable {db db' : Database}

theorem nodup_deleteWhere {rows : List FtsRow} (h : (rows.map FtsRow.id).Nodup) (p : FtsRow → Bool) :
    ((deleteWhere p rows).map FtsRow.id).Nodup := h.sublist (List.filter_sublist.map _)

theorem nodup_append_row {rows : List FtsRow} (h : (rows.map FtsRow.id).Nodup) {r : MemoryRecord} (hnew : r.id ∉ rows.map FtsRow.id) :
    ((rows ++ [ftsRow r]).map FtsRow.id).Nodup := by
  rw [List.map_append, List.nodup_append]
  refine ⟨h, List.nodup_singleton _, ?_⟩
  intro a ha b hb heq
  rw [heq, List.mem_singleton.mp hb] at ha
  exact hnew ha

theorem mem_ids_deleteWhere (rows : List FtsRow) (q : String → Bool) (id : String) :
    id ∈ (deleteWhere (fun row => q row.id) rows).map FtsRow.id ↔ id ∈ rows.map FtsRow.id ∧ q id = false := by
  simp only [List.mem_map, mem_deleteWhere]
  constructor
  · rintro ⟨row, ⟨hrow, hq⟩, rfl⟩
    exact ⟨⟨row, hrow, rfl⟩, hq⟩
  · rintro ⟨⟨row, hrow, rfl⟩, hq⟩
    exact ⟨row, ⟨hrow, hq⟩, rfl⟩

theorem live_append {rows : List MemoryRecord} {r : MemoryRecord} (hlive : r.isDeleted = false) (id : String) :
    Live (rows ++ [r]) id ↔ Live rows id ∨ id = r.id := by
  constructor
  · rintro ⟨s, hs, rfl, hs'⟩
    obtain hs | hs := List.mem_append.mp hs
    · exact .inl ⟨s, hs, rfl, hs'⟩
    · exact .inr (congrArg _ (List.mem_singleton.mp hs))
  · rintro (⟨s, hs, rfl, hs'⟩ | rfl)
    · exact ⟨s, List.mem_append_left _ hs, rfl, hs'⟩
    · exact ⟨r, by simp, rfl, hlive⟩

theorem live_refresh {rows : List MemoryRecord} {p : MemoryRecord → Bool} {g : MemoryRecord → MemoryRecord}
    (hid : ∀ r, (g r).id = r.id) (hg : ∀ r, (g r).isDeleted = r.isDeleted) (id : String) :
    Live (updateWhere p g rows) id ↔ Live rows id := by
  have hrow : ∀ r, (if p r then g r else r).id = r.id ∧ (if p r then g r else r).isDeleted = r.isDeleted := by
    intro r
    split
    · exact ⟨hid r, hg r⟩
    · exact ⟨rfl, rfl⟩
  constructor
  · rintro ⟨s, hs, rfl, hlive⟩
    obtain ⟨r, hr, rfl⟩ := mem_updateWhere.mp hs
    exact ⟨r, hr, (hrow r).1.symm, (hrow r).2.symm.trans hlive⟩
  · rintro ⟨r, hr, rfl, hlive⟩
    exact ⟨_, mem_updateWhere.mpr ⟨r, hr, rfl⟩, (hrow r).1, (hrow r).2.trans hlive⟩

theorem live_hide {rows : List MemoryRecord} {p : MemoryRecord → Bool} {g : MemoryRecord → MemoryRecord}
    (hg : ∀ r, (g r).isDeleted = true) (id : String) :
    Live (updateWhere p g rows) id ↔ ∃ r ∈ rows, r.id = id ∧ r.isDeleted = false ∧ p r = false := by
  constructor
  · rintro ⟨s, hs, rfl, hlive⟩
    obtain ⟨r, hr, rfl⟩ := mem_updateWhere.mp hs
    cases hp : p r with
    | true =>
      rw [if_pos hp, hg] at hlive
      cases hlive
    | false =>
      rw [if_neg (by simp [hp])] at hlive ⊢
      exact ⟨r, hr, rfl, hlive, hp⟩
  · rintro ⟨r, hr, rfl, hlive, hp⟩
    exact ⟨r, mem_updateWhere.mpr ⟨r, hr, if_neg (by simp [hp])⟩, rfl, hlive⟩

theorem live_hide_id {rows : List MemoryRecord} {hidden : String} {g : MemoryRecord → MemoryRecord}
    (hg : ∀ r, (g r).isDeleted = true) (id : String) :
    Live (updateWhere (fun r => r.id = hidden) g rows) id ↔ Live rows id ∧ id ≠ hidden := by
  rw [live_hide hg]
  constructor
  · rintro ⟨r, hr, rfl, hlive, hp⟩
    exact ⟨⟨r, hr, rfl, hlive⟩, of_decide_eq_false hp⟩
  · rintro ⟨⟨r, hr, rfl, hlive⟩, hne⟩
    exact ⟨r, hr, rfl, hlive, decide_eq_false hne⟩

theorem live_renew {rows : List MemoryRecord} {new : MemoryRecord} {g : MemoryRecord → MemoryRecord} (hnew : ∃ r ∈ rows, r.id = new.id)
    (hid : ∀ r, (g r).id = r.id) (hg : ∀ r, (g r).isDeleted = false) (id : String) :
    Live (updateWhere (fun r => r.id = new.id) g rows) id ↔ Live rows id ∨ id = new.id := by
  constructor
  · rintro ⟨s, hs, rfl, hlive⟩
    obtain ⟨r, hr, rfl⟩ := mem_updateWhere.mp hs
    by_cases hr' : r.id = new.id
    · rw [if_pos (by simpa using hr')]
      exact .inr ((hid r).trans hr')
    · rw [if_neg (by simpa using hr')] at hlive ⊢
      exact .inl ⟨r, hr, rfl, hlive⟩
  · rintro (⟨r, hr, rfl, hlive⟩ | rfl)
    · refine ⟨_, mem_updateWhere.mpr ⟨r, hr, rfl⟩, ?_, ?_⟩
      · split
        · exact hid r
        · rfl
      · split
        · exact hg r
        · exact hlive
    · obtain ⟨r, hr, hr'⟩ := hnew
      exact ⟨_, mem_updateWhere.mpr ⟨r, hr, if_pos (by simpa using hr')⟩, (hid r).trans hr', hg r⟩

def Shown (_ : Database) (_ new : MemoryRecord) : Prop := new.isDeleted = false

def Visible (r : MemoryRecord) : Prop := r.isDeleted = false

theorem Indexed.hide (h : Indexed db) {p : MemoryRecord → Bool} {g : MemoryRecord → MemoryRecord} {q : String → Bool}
    (hg : ∀ r, Kept r (g r) ∧ (g r).isDeleted = true) (hpq : ∀ r ∈ db.records, p r = true → q r.id = true)
    (hqp : ∀ r ∈ db.records, q r.id = true → ∃ s ∈ db.records, p s = true ∧ s.id = r.id)
    (hrecords : db'.records = updateWhere p g db.records) (hfts : db'.fts = deleteWhere (fun row => q row.id) db.fts) :
    Indexed db' := by
  refine ⟨⟨?_, ?_⟩, ?_⟩
  · rw [hfts]
    exact nodup_deleteWhere h.once _
  · intro id
    rw [hfts, hrecords, mem_ids_deleteWhere, h.exact, live_hide fun r => (hg r).2]
    constructor
    · rintro ⟨⟨r, hr, rfl, hlive⟩, hq⟩
      refine ⟨r, hr, rfl, hlive, ?_⟩
      by_contra hp
      rw [hpq r hr (Bool.of_not_eq_false hp)] at hq
      cases hq
    · rintro ⟨r, hr, rfl, hlive, hp⟩
      refine ⟨⟨r, hr, rfl, hlive⟩, ?_⟩
      by_contra hq
      obtain ⟨s, hs, hps, hid⟩ := hqp r hr (Bool.of_not_eq_false hq)
      rw [h.ids.eq_of_key_eq hs hr hid, hp] at hps
      cases hps
  · rw [hrecords]
    exact h.ids.updateWhere fun r _ => (hg r).1.id

theorem Indexed.supersede (h : Indexed db) {old new : MemoryRecord} {reason validTo now : String} {g : MemoryRecord → MemoryRecord}
    (hshown : new.isDeleted = false) (hnew : new ∈ db.records) (hne : old.id ≠ new.id) (hg : ∀ r, Renewed old.id r (g r))
    (hrecords : db'.records = updateWhere (fun s => s.id = new.id) g
      (updateWhere (fun s => s.id = old.id) (retire new.id reason validTo now) db.records))
    (hfts : db'.fts.map FtsRow.id = (deleteWhere (fun row => row.id = old.id) db.fts).map FtsRow.id) : Indexed db' := by
  have hmem : ∃ r ∈ updateWhere (fun s => s.id = old.id) (retire new.id reason validTo now) db.records, r.id = new.id :=
    ⟨new, mem_updateWhere.mpr ⟨new, hnew, if_neg (by simpa using hne.symm)⟩, rfl⟩
  refine ⟨⟨?_, ?_⟩, ?_⟩
  · rw [hfts]
    exact nodup_deleteWhere h.once _
  · intro id
    rw [hfts, hrecords, mem_ids_deleteWhere db.fts (fun id => id = old.id), h.exact,
      live_renew hmem (fun r => (hg r).id) (fun r => (hg r).isDeleted), live_hide_id fun _ => rfl, decide_eq_false_iff_not]
    constructor
    · exact .inl
    · rintro (hlive | rfl)
      · exact hlive
      · exact ⟨⟨new, hnew, rfl, hshown⟩, hne.symm⟩
  · have hids : UniqueKey MemoryRecord.id (updateWhere (fun s => s.id = old.id) (retire new.id reason validTo now) db.records) :=
      h.ids.updateWhere (f := retire new.id reason validTo now) fun _ _ => rfl
    rw [hrecords]
    exact hids.updateWhere fun r _ => (hg r).id

theorem Indexed.replace (h : Indexed db) {old r : MemoryRecord} {reason validTo now : String}
    (hfresh : ∀ s ∈ db.records, s.id ≠ r.id)
    (hrecords : db'.records =
      updateWhere (fun s => s.id = old.id) (retire r.id reason validTo now) db.records ++ [renew old.id now r])
    (hfts : db'.fts = deleteWhere (fun row => row.id = old.id) db.fts ++ [ftsRow r]) : Indexed db' := by
  have hnew : r.id ∉ db.fts.map FtsRow.id := by
    intro hmem
    obtain ⟨s, hs, hid, -⟩ := (h.exact r.id).mp hmem
    exact hfresh s hs hid
  refine ⟨⟨?_, ?_⟩, ?_⟩
  · rw [hfts]
    apply nodup_append_row (nodup_deleteWhere h.once _)
    intro hmem
    exact hnew ((mem_ids_deleteWhere db.fts (fun id => id = old.id) _).mp hmem).1
  · intro id
    rw [hfts, hrecords, List.map_append, List.mem_append, mem_ids_deleteWhere db.fts (fun id => id = old.id), h.exact,
      live_append rfl, live_hide_id fun _ => rfl, decide_eq_false_iff_not]
    exact Iff.or Iff.rfl List.mem_singleton
  · have hids : UniqueKey MemoryRecord.id (updateWhere (fun s => s.id = old.id) (retire r.id reason validTo now) db.records) :=
      h.ids.updateWhere (f := retire r.id reason validTo now) fun _ _ => rfl
    rw [hrecords]
    apply hids.append_singleton
    intro s hs
    obtain ⟨t, ht, rfl⟩ := mem_updateWhere.mp hs
    split
    · exact hfresh t ht
    · exact hfresh t ht

theorem Indexed.purge (h : Indexed db) {ids : List String}
    (hrecords : db'.records = deleteWhere (fun r => r.id ∈ ids) (db.records.map (unlink ids)))
    (hfts : db'.fts = deleteWhere (fun row => row.id ∈ ids) db.fts) : Indexed db' := by
  have hkept : ∀ r, (unlink ids r).id = r.id ∧ (unlink ids r).isDeleted = r.isDeleted := by
    intro r
    rw [unlink]
    split
    · exact ⟨rfl, rfl⟩
    · exact ⟨rfl, rfl⟩
  refine ⟨⟨?_, ?_⟩, ?_⟩
  · rw [hfts]
    exact nodup_deleteWhere h.once _
  · intro id
    rw [hfts, hrecords, mem_ids_deleteWhere db.fts (fun id => id ∈ ids), h.exact, decide_eq_false_iff_not]
    constructor
    · rintro ⟨⟨r, hr, rfl, hlive⟩, hid⟩
      refine ⟨unlink ids r, mem_deleteWhere.mpr ⟨List.mem_map.mpr ⟨r, hr, rfl⟩, ?_⟩, (hkept r).1, (hkept r).2.trans hlive⟩
      rw [(hkept r).1]
      exact decide_eq_false hid
    · rintro ⟨s, hs, rfl, hlive⟩
      obtain ⟨hs, hid⟩ := mem_deleteWhere.mp hs
      obtain ⟨r, hr, rfl⟩ := List.mem_map.mp hs
      exact ⟨⟨r, hr, (hkept r).1.symm, (hkept r).2.symm.trans hlive⟩, of_decide_eq_false hid⟩
  · rw [hrecords]
    apply UniqueKey.deleteWhere
    have hmap : (db.records.map (unlink ids)).map MemoryRecord.id = db.records.map MemoryRecord.id := by
      rw [List.map_map]
      apply List.map_congr_left
      intro r _
      exact (hkept r).1
    rw [UniqueKey, hmap]
    exact h.ids

theorem Indexed.effect (h : Indexed db) (heffect : Effect Shown Visible db db') : Indexed db' := by
  cases heffect with
  | aside hrecords hfts => exact ⟨⟨hfts ▸ h.once, by rw [hrecords, hfts]; exact h.exact⟩, hrecords ▸ h.ids⟩
  | refresh p g hg hrecords hfts =>
    refine ⟨⟨hfts ▸ h.once, ?_⟩, ?_⟩
    · intro id
      rw [hfts, hrecords, h.exact, live_refresh (fun r => (hg r).1.id) fun r => (hg r).2]
    · rw [hrecords]
      exact h.ids.updateWhere fun r _ => (hg r).1.id
  | hide p g q hg hpq hqp hrecords hfts => exact h.hide hg hpq hqp hrecords hfts
  | insert r hvisible hinsert hrecords hfts =>
    have hfresh := fresh_of_insertFails hinsert
    have hnew : r.id ∉ db.fts.map FtsRow.id := by
      intro hmem
      obtain ⟨s, hs, hid, -⟩ := (h.exact r.id).mp hmem
      exact hfresh s hs hid
    refine ⟨⟨?_, ?_⟩, ?_⟩
    · rw [hfts]
      exact nodup_append_row h.once hnew
    · intro id
      rw [hfts, hrecords, List.map_append, List.mem_append, h.exact, live_append hvisible]
      exact Iff.or Iff.rfl List.mem_singleton
    · rw [hrecords]
      exact h.ids.append_singleton hfresh
  | replace old r reason validTo now _ _ _ _ _ hfresh hrecords hfts => exact h.replace hfresh hrecords hfts
  | supersede old new reason validTo now g hshown _ hnew hne hg _ hrecords hfts =>
    exact h.supersede hshown hnew hne hg hrecords hfts
  | purge ids _ hrecords hfts => exact h.purge hrecords hfts

/-- In every run from the empty store that puts and supersedes records which are not hidden, the index follows them.
-/
theorem follows_of_shown (env : Environment) (ops : List Op)
    (h : Guarded (step env) (Allowed env Shown Visible) {} ops) : Follows (run (step env) {} ops) := by
  have hindexed : Indexed (run (step env) {} ops) := by
    refine h.invariant ?_ Indexed.empty
    intro db op hdb hallowed
    have heffects := step_effects env (fun r _ hvisible => hvisible) (fun r hvisible => hvisible) hallowed
    exact effects_invariant (fun _ _ hdb heffect => hdb.effect heffect) heffects hdb
  exact hindexed.toFollows

def noteCalls : List Op :=
  [.put (note "a" (some "k")), .put (note "b"), .upsert "agent:a" "fact" "k" {} ⟨"t1", "c"⟩, .delete "b" none none "t2"]

theorem noteCalls_follows :
    Guarded (step permissive) (Allowed permissive Shown Visible) {} noteCalls ∧ Follows (run (step permissive) {} noteCalls) := by
  have hguarded : Guarded (step permissive) (Allowed permissive Shown Visible) {} noteCalls := by
    refine .cons ⟨?_, ?_⟩ (.cons ⟨?_, ?_⟩ (.cons ⟨?_, ?_⟩ (.cons ⟨?_, ?_⟩ (.nil _))))
    · simp [supersession]
    · rintro r ⟨⟩
      exact rfl
    · simp [supersession]
    · rintro r ⟨⟩
      exact rfl
    · simp [supersession]
    · rintro r ⟨⟩
    · simp [supersession]
    · rintro r ⟨⟩
  exact ⟨hguarded, follows_of_shown permissive noteCalls hguarded⟩

/-- A record that is deleted and then supersedes another is live, but not in the index. -/
theorem revived_unindexed :
    let db := run (step permissive) {} [.put (note "a"), .put (note "b"), .delete "b" none none "t1", .supersede "a" "b" "" none "t2"]
    (db.records.filter fun r => !r.isDeleted).map MemoryRecord.id = ["b"] ∧ db.fts.map FtsRow.id = [] ∧ ¬ Follows db := by
  intro db
  have hfts : db.fts.map FtsRow.id = [] := by decide +kernel
  have hlive : (db.records.filter fun r => !r.isDeleted).map MemoryRecord.id = ["b"] := by decide +kernel
  refine ⟨hlive, hfts, ?_⟩
  intro h
  have hmem : "b" ∈ (db.records.filter fun r => !r.isDeleted).map MemoryRecord.id := by simp [hlive]
  obtain ⟨r, hr, hid⟩ := List.mem_map.mp hmem
  obtain ⟨hr, hshown⟩ := List.mem_filter.mp hr
  have hindexed := (h.exact "b").mpr ⟨r, hr, hid, by simpa using hshown⟩
  rw [hfts] at hindexed
  cases hindexed

end OpenMinion.FullTextIndex
