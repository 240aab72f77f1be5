import OpenMinion.LinkChains
import OpenMinion.MemoryEffects

/-!
# Chains of supersession

The chain of `supersedes_id` stays without a cycle as long as no supersession takes an old record
that already leads to the new one.
-/
namespace OpenMinion.SupersessionChains
open KeyedTables LinkChains MemoryDatabase MemoryEffects MemoryStore Relation TransitionRuns

def Link (field : MemoryRecord → Option String) (rows : List MemoryRecord) (a b : String) : Prop :=
  ∃ r ∈ rows, r.id = a ∧ field r = some b

abbrev Supersedes := Link MemoryRecord.supersedesId

abbrev SupersededBy := Link MemoryRecord.supersededById

/-- Two active records with one key. -/
structure SameKey (r s : MemoryRecord) : Prop where
  left : isActive r = true
  right : isActive s = true
  scope : r.scope = s.scope
  recordType : r.recordType = s.recordType
  present : r.key.isSome = true
  key : r.key = s.key

/-- Supersession is well-founded. -/
structure WellFounded (rows : List MemoryRecord) : Prop where
  supersedes : Acyclic (Supersedes rows)
  supersededBy : Acyclic (SupersededBy rows)
  live : ∀ r ∈ rows, r.isDeleted = false → r.supersededById = none
  keys : ∀ r ∈ rows, ∀ s ∈ rows, SameKey r s → r = s

/-- With the keys of the table: ids are unique and refer to rows. -/
structure Linked (rows : List MemoryRecord) : Prop extends WellFounded rows where
  ids : UniqueKey MemoryRecord.id rows
  closed : ∀ a b, Supersedes rows a b → ∃ s ∈ rows, s.id = b

theorem Linked.empty : Linked [] where
  supersedes a hcycle := by
    obtain ⟨b, ⟨r, hr, -⟩, -⟩ := TransGen.head'_iff.mp hcycle
    cases hr
  supersededBy a hcycle := by
    obtain ⟨b, ⟨r, hr, -⟩, -⟩ := TransGen.head'_iff.mp hcycle
    cases hr
  live := by simp
  keys := by simp
  ids := .nil
  closed := by
    rintro a b ⟨r, hr, -⟩
    cases hr

theorem SameKey.symm {r s : MemoryRecord} (h : SameKey r s) : SameKey s r :=
  ⟨h.right, h.left, h.scope.symm, h.recordType.symm, h.key ▸ h.present, h.key.symm⟩

theorem isActive_iff (r : MemoryRecord) : isActive r = true ↔ r.isDeleted = false ∧ r.supersededById = none := by
  simp [isActive]

theorem eq_of_keyClash {rows : List MemoryRecord} {r s : MemoryRecord} (hclash : keyClash rows r = false) (hs : s ∈ rows)
    (hkey : SameKey r s) : s.id = r.id := by
  by_contra hid
  have hmatch : keyClash rows r = true := by
    rw [keyClash, hkey.present, hkey.left, Bool.true_and, Bool.true_and, List.any_eq_true]
    refine ⟨s, hs, ?_⟩
    simp [hid, hkey.right, hkey.scope, hkey.recordType, hkey.key]
  rw [hclash] at hmatch
  cases hmatch

theorem link_updateWhere {field : MemoryRecord → Option String} {rows : List MemoryRecord} {p : MemoryRecord → Bool}
    {g : MemoryRecord → MemoryRecord} (hid : ∀ r, (g r).id = r.id) (hfield : ∀ r, field (g r) = field r) (a b : String) :
    Link field (updateWhere p g rows) a b → Link field rows a b := by
  rintro ⟨s, hs, hsid, hlink⟩
  obtain ⟨r, hr, rfl⟩ := mem_updateWhere.mp hs
  refine ⟨r, hr, ?_, ?_⟩
  · split at hsid
    · rw [← hsid, hid]
    · exact hsid
  · split at hlink
    · rw [← hlink, hfield]
    · exact hlink

theorem Linked.update {rows : List MemoryRecord} (h : Linked rows) {p : MemoryRecord → Bool} {g : MemoryRecord → MemoryRecord}
    (hkept : ∀ r, Kept r (g r)) (hdeleted : ∀ r, (g r).isDeleted = false → r.isDeleted = false) :
    Linked (updateWhere p g rows) := by
  have hrow : ∀ r, Kept r (if p r then g r else r) ∧ ((if p r then g r else r).isDeleted = false → r.isDeleted = false) := by
    intro r
    split
    · exact ⟨hkept r, hdeleted r⟩
    · exact ⟨.refl r, id⟩
  have hactive : ∀ r, isActive (if p r then g r else r) = true → isActive r = true := by
    intro r hr
    obtain ⟨hk, hd⟩ := hrow r
    rw [isActive_iff] at hr ⊢
    exact ⟨hd hr.1, hk.supersededById ▸ hr.2⟩
  refine ⟨⟨?_, ?_, ?_, ?_⟩, ?_, ?_⟩
  · exact h.supersedes.mono (link_updateWhere (fun r => (hkept r).id) fun r => (hkept r).supersedesId)
  · exact h.supersededBy.mono (link_updateWhere (fun r => (hkept r).id) fun r => (hkept r).supersededById)
  · intro s hs hlive
    obtain ⟨r, hr, rfl⟩ := mem_updateWhere.mp hs
    obtain ⟨hk, hd⟩ := hrow r
    rw [hk.supersededById]
    exact h.live r hr (hd hlive)
  · intro s hs t ht hkey
    obtain ⟨r, hr, rfl⟩ := mem_updateWhere.mp hs
    obtain ⟨u, hu, rfl⟩ := mem_updateWhere.mp ht
    obtain ⟨hkr, -⟩ := hrow r
    obtain ⟨hku, -⟩ := hrow u
    have hsame : SameKey r u := by
      refine ⟨hactive r hkey.left, hactive u hkey.right, ?_, ?_, ?_, ?_⟩
      · rw [← hkr.scope, ← hku.scope, hkey.scope]
      · rw [← hkr.recordType, ← hku.recordType, hkey.recordType]
      · rw [← hkr.key]
        exact hkey.present
      · rw [← hkr.key, ← hku.key, hkey.key]
    rw [h.keys r hr u hu hsame]
  · exact h.ids.updateWhere fun r _ => (hkept r).id
  · intro a b hlink
    obtain ⟨r, hr, hid⟩ := h.closed a b (link_updateWhere (fun r => (hkept r).id) (fun r => (hkept r).supersedesId) a b hlink)
    exact ⟨_, mem_updateWhere.mpr ⟨r, hr, rfl⟩, (hrow r).1.id.trans hid⟩

theorem link_append {field : MemoryRecord → Option String} {rows : List MemoryRecord} {r : MemoryRecord} {a b : String}
    (h : Link field (rows ++ [r]) a b) : Link field rows a b ∨ (a = r.id ∧ field r = some b) := by
  obtain ⟨s, hs, hid, hlink⟩ := h
  obtain hs | hs := List.mem_append.mp hs
  · exact .inl ⟨s, hs, hid, hlink⟩
  · obtain rfl := List.mem_singleton.mp hs
    exact .inr ⟨hid.symm, hlink⟩

theorem Linked.insert {rows : List MemoryRecord} (h : Linked rows) {r : MemoryRecord} (hlinks : Unlinked r)
    (hinsert : insertFails rows r = false) : Linked (rows ++ [r]) := by
  obtain ⟨hsupersedes, hsuperseded⟩ := hlinks
  have hfresh := fresh_of_insertFails hinsert
  have hclash := keyClash_of_insertFails hinsert
  refine ⟨⟨?_, ?_, ?_, ?_⟩, h.ids.append_singleton hfresh, ?_⟩
  · apply h.supersedes.mono
    intro a b hlink
    obtain hold | ⟨-, hnew⟩ := link_append hlink
    · exact hold
    · rw [hsupersedes] at hnew
      cases hnew
  · apply h.supersededBy.mono
    intro a b hlink
    obtain hold | ⟨-, hnew⟩ := link_append hlink
    · exact hold
    · rw [hsuperseded] at hnew
      cases hnew
  · intro s hs hlive
    obtain hs | hs := List.mem_append.mp hs
    · exact h.live s hs hlive
    · rw [List.mem_singleton.mp hs]
      exact hsuperseded
  · intro s hs t ht hkey
    obtain hs | hs := List.mem_append.mp hs
    · obtain ht | ht := List.mem_append.mp ht
      · exact h.keys s hs t ht hkey
      · rw [List.mem_singleton.mp ht] at hkey
        exact absurd (eq_of_keyClash hclash hs hkey.symm) (hfresh s hs)
    · obtain ht | ht := List.mem_append.mp ht
      · rw [List.mem_singleton.mp hs] at hkey
        exact absurd (eq_of_keyClash hclash ht hkey) (hfresh t ht)
      · rw [List.mem_singleton.mp hs, List.mem_singleton.mp ht]
  · intro a b hlink
    obtain hold | ⟨-, hnew⟩ := link_append hlink
    · obtain ⟨s, hs, hid⟩ := h.closed a b hold
      exact ⟨s, List.mem_append_left _ hs, hid⟩
    · rw [hsupersedes] at hnew
      cases hnew

theorem Linked.mem_of_chain {rows : List MemoryRecord} (h : Linked rows) {a b : String}
    (hchain : ReflTransGen (Supersedes rows) a b) : a = b ∨ ∃ s ∈ rows, s.id = b := by
  obtain rfl | ⟨c, -, hlink⟩ := ReflTransGen.cases_tail hchain
  · exact .inl rfl
  · exact .inr (h.closed c b hlink)

section Retired

variable {rows : List MemoryRecord} {oldId newId reason validTo now : String}

def retired (rows : List MemoryRecord) (oldId newId reason validTo now : String) : List MemoryRecord :=
  updateWhere (fun s => s.id = oldId) (retire newId reason validTo now) rows

theorem mem_retired_cases {s : MemoryRecord} (hs : s ∈ retired rows oldId newId reason validTo now) :
    (s ∈ rows ∧ s.id ≠ oldId) ∨ ∃ r ∈ rows, r.id = oldId ∧ s = retire newId reason validTo now r := by
  obtain ⟨r, hr, rfl⟩ := mem_updateWhere.mp hs
  by_cases hid : r.id = oldId
  · rw [if_pos (by simpa using hid)]
    exact .inr ⟨r, hr, hid, rfl⟩
  · rw [if_neg (by simpa using hid)]
    exact .inl ⟨hr, hid⟩

theorem supersedes_retired (a b : String) : Supersedes (retired rows oldId newId reason validTo now) a b → Supersedes rows a b :=
  link_updateWhere (g := retire newId reason validTo now) (fun _ => rfl) (fun _ => rfl) a b

theorem supersededBy_retired (a b : String) (h : SupersededBy (retired rows oldId newId reason validTo now) a b) :
    SupersededBy rows a b ∨ b = newId := by
  obtain ⟨s, hs, hid, hlink⟩ := h
  obtain ⟨hs, -⟩ | ⟨r, hr, -, rfl⟩ := mem_retired_cases hs
  · exact .inl ⟨s, hs, hid, hlink⟩
  · exact .inr (Option.some.inj hlink).symm

theorem mem_of_active_retired {s : MemoryRecord} (hs : s ∈ retired rows oldId newId reason validTo now) (hactive : isActive s = true) :
    s ∈ rows ∧ s.id ≠ oldId := by
  obtain hs | ⟨r, hr, -, rfl⟩ := mem_retired_cases hs
  · exact hs
  · simp [isActive, retire] at hactive

theorem live_retired (h : Linked rows) {s : MemoryRecord} (hs : s ∈ retired rows oldId newId reason validTo now)
    (hlive : s.isDeleted = false) : s.supersededById = none := by
  obtain ⟨hs, -⟩ | ⟨r, hr, -, rfl⟩ := mem_retired_cases hs
  · exact h.live s hs hlive
  · cases hlive

theorem exists_retired {b : String} (h : ∃ s ∈ rows, s.id = b) : ∃ s ∈ retired rows oldId newId reason validTo now, s.id = b := by
  obtain ⟨s, hs, hid⟩ := h
  refine ⟨_, mem_updateWhere.mpr ⟨s, hs, rfl⟩, ?_⟩
  split
  · exact hid
  · exact hid

end Retired

theorem Linked.replace {rows : List MemoryRecord} (h : Linked rows) {old r : MemoryRecord} {reason validTo now : String}
    (hold : old ∈ rows) (hactive : isActive old = true) (hscope : old.scope = r.scope) (htype : old.recordType = r.recordType)
    (hkey : old.key = r.key) (hfresh : ∀ s ∈ rows, s.id ≠ r.id) :
    Linked (retired rows old.id r.id reason validTo now ++ [renew old.id now r]) := by
  have hne : old.id ≠ r.id := hfresh old hold
  -- an active record with the key of the new one would be the old one, which is retired
  have hclear : ∀ s ∈ retired rows old.id r.id reason validTo now, ¬ SameKey (renew old.id now r) s := by
    intro s hs hsame
    obtain ⟨hmem, hid⟩ := mem_of_active_retired hs hsame.right
    have hsameOld : SameKey old s := by
      refine ⟨hactive, hsame.right, hscope.trans hsame.scope, htype.trans hsame.recordType, ?_, hkey.trans hsame.key⟩
      rw [hkey]
      exact hsame.present
    exact hid (congrArg MemoryRecord.id (h.keys old hold s hmem hsameOld)).symm
  have hnone : ∀ s ∈ retired rows old.id r.id reason validTo now, s.id ≠ r.id := by
    intro s hs
    obtain ⟨hs, -⟩ | ⟨t, ht, -, rfl⟩ := mem_retired_cases hs
    · exact hfresh s hs
    · exact hfresh t ht
  refine ⟨⟨?_, ?_, ?_, ?_⟩, ?_, ?_⟩
  · apply h.supersedes.redirect (a := r.id) (b := old.id)
    · intro a b hlink
      obtain hlink | ⟨ha, hb⟩ := link_append hlink
      · exact .inl (supersedes_retired a b hlink)
      · exact .inr ⟨ha, (Option.some.inj hb).symm⟩
    · intro hback
      obtain heq | ⟨s, hs, hid⟩ := h.mem_of_chain hback
      · exact hne heq
      · exact hfresh s hs hid
  · apply h.supersededBy.sink (a := r.id)
    · intro a b hlink
      obtain hlink | ⟨-, hb⟩ := link_append hlink
      · exact supersededBy_retired a b hlink
      · cases hb
    · rintro b ⟨s, hs, hid, hlink⟩
      obtain hs | hs := List.mem_append.mp hs
      · exact hnone s hs hid
      · rw [List.mem_singleton.mp hs] at hlink
        cases hlink
  · intro s hs hlive
    obtain hs | hs := List.mem_append.mp hs
    · exact live_retired h hs hlive
    · rw [List.mem_singleton.mp hs]
      rfl
  · intro s hs t ht hsame
    obtain hs | hs := List.mem_append.mp hs
    · obtain ht | ht := List.mem_append.mp ht
      · exact h.keys s (mem_of_active_retired hs hsame.left).1 t (mem_of_active_retired ht hsame.right).1 hsame
      · rw [List.mem_singleton.mp ht] at hsame
        exact absurd hsame.symm (hclear s hs)
    · obtain ht | ht := List.mem_append.mp ht
      · rw [List.mem_singleton.mp hs] at hsame
        exact absurd hsame (hclear t ht)
      · rw [List.mem_singleton.mp hs, List.mem_singleton.mp ht]
  · have hids : UniqueKey MemoryRecord.id (retired rows old.id r.id reason validTo now) :=
      h.ids.updateWhere (f := retire r.id reason validTo now) fun _ _ => rfl
    exact hids.append_singleton hnone
  · intro a b hlink
    obtain hlink | ⟨-, hb⟩ := link_append hlink
    · obtain ⟨s, hs, hid⟩ := exists_retired (h.closed a b (supersedes_retired a b hlink))
      exact ⟨s, List.mem_append_left _ hs, hid⟩
    · obtain ⟨s, hs, hid⟩ := @exists_retired rows old.id r.id reason validTo now old.id ⟨old, hold, rfl⟩
      exact ⟨s, List.mem_append_left _ hs, hid.trans (Option.some.inj hb)⟩

section Supersede

variable {rows : List MemoryRecord} {old new : MemoryRecord} {reason validTo now : String} {g : MemoryRecord → MemoryRecord}

def renewed (rows : List MemoryRecord) (new : MemoryRecord) (g : MemoryRecord → MemoryRecord) : List MemoryRecord :=
  updateWhere (fun s => s.id = new.id) g rows

theorem mem_renewed_cases {s : MemoryRecord} (hs : s ∈ renewed rows new g) :
    (s ∈ rows ∧ s.id ≠ new.id) ∨ ∃ r ∈ rows, r.id = new.id ∧ s = g r := by
  obtain ⟨r, hr, rfl⟩ := mem_updateWhere.mp hs
  by_cases hid : r.id = new.id
  · rw [if_pos (by simpa using hid)]
    exact .inr ⟨r, hr, hid, rfl⟩
  · rw [if_neg (by simpa using hid)]
    exact .inl ⟨hr, hid⟩

theorem supersedes_renewed (hg : ∀ r, Renewed old.id r (g r)) (a b : String)
    (h : Supersedes (renewed (retired rows old.id new.id reason validTo now) new g) a b) :
    Supersedes rows a b ∨ (a = new.id ∧ b = old.id) := by
  obtain ⟨s, hs, hid, hlink⟩ := h
  obtain ⟨hs, -⟩ | ⟨r, hr, hrid, rfl⟩ := mem_renewed_cases hs
  · exact .inl (supersedes_retired a b ⟨s, hs, hid, hlink⟩)
  · rw [(hg r).supersedesId] at hlink
    exact .inr ⟨hid.symm.trans ((hg r).id.trans hrid), (Option.some.inj hlink).symm⟩

theorem Linked.supersede (h : Linked rows) (hold : old ∈ rows) (hback : ¬ ReflTransGen (Supersedes rows) old.id new.id)
    (hg : ∀ r, Renewed old.id r (g r))
    (hclash : ∀ r ∈ rows, r.id = new.id → keyClash (retired rows old.id new.id reason validTo now) (g r) = false) :
    Linked (renewed (retired rows old.id new.id reason validTo now) new g) := by
  have hids : UniqueKey MemoryRecord.id (retired rows old.id new.id reason validTo now) :=
    h.ids.updateWhere (f := retire new.id reason validTo now) fun _ _ => rfl
  have hclear : ∀ r ∈ retired rows old.id new.id reason validTo now, r.id = new.id →
      keyClash (retired rows old.id new.id reason validTo now) (g r) = false := by
    intro r hr hid
    obtain ⟨hr, -⟩ | ⟨t, ht, htid, rfl⟩ := mem_retired_cases hr
    · exact hclash r hr hid
    · exact absurd .refl (htid.symm.trans hid ▸ hback)
  have hother : ∀ r ∈ retired rows old.id new.id reason validTo now, r.id = new.id →
      ∀ s ∈ retired rows old.id new.id reason validTo now, s.id ≠ new.id → ¬ SameKey (g r) s := by
    intro r hr hid s hs hne hsame
    have heq := eq_of_keyClash (hclear r hr hid) hs hsame
    exact hne (heq.trans ((hg r).id.trans hid))
  refine ⟨⟨?_, ?_, ?_, ?_⟩, ?_, ?_⟩
  · exact h.supersedes.redirect (supersedes_renewed hg) hback
  · apply h.supersededBy.sink (a := new.id)
    · rintro a b ⟨s, hs, hid, hlink⟩
      obtain ⟨hs, -⟩ | ⟨r, hr, -, rfl⟩ := mem_renewed_cases hs
      · exact supersededBy_retired a b ⟨s, hs, hid, hlink⟩
      · rw [(hg r).supersededById] at hlink
        cases hlink
    · rintro b ⟨s, hs, hid, hlink⟩
      obtain ⟨-, hne⟩ | ⟨r, hr, -, rfl⟩ := mem_renewed_cases hs
      · exact hne hid
      · rw [(hg r).supersededById] at hlink
        cases hlink
  · intro s hs hlive
    obtain ⟨hs, -⟩ | ⟨r, hr, -, rfl⟩ := mem_renewed_cases hs
    · exact live_retired h hs hlive
    · exact (hg r).supersededById
  · intro s hs t ht hsame
    obtain ⟨hs, hsid⟩ | ⟨r, hr, hrid, rfl⟩ := mem_renewed_cases hs
    · obtain ⟨ht, -⟩ | ⟨u, hu, huid, rfl⟩ := mem_renewed_cases ht
      · exact h.keys s (mem_of_active_retired hs hsame.left).1 t (mem_of_active_retired ht hsame.right).1 hsame
      · exact absurd hsame.symm (hother u hu huid s hs hsid)
    · obtain ⟨ht, htid⟩ | ⟨u, hu, huid, rfl⟩ := mem_renewed_cases ht
      · exact absurd hsame (hother r hr hrid t ht htid)
      · rw [hids.eq_of_key_eq hr hu (hrid.trans huid.symm)]
  · exact hids.updateWhere fun r _ => (hg r).id
  · intro a b hlink
    have htarget : ∃ s ∈ retired rows old.id new.id reason validTo now, s.id = b := by
      obtain hlink | ⟨-, rfl⟩ := supersedes_renewed hg a b hlink
      · exact exists_retired (h.closed a b hlink)
      · exact exists_retired ⟨old, hold, rfl⟩
    obtain ⟨s, hs, hid⟩ := htarget
    refine ⟨_, mem_updateWhere.mpr ⟨s, hs, rfl⟩, ?_⟩
    split
    · exact (hg s).id.trans hid
    · exact hid

/-- A supersession of a record that leads to the new one closes a cycle. -/
theorem not_acyclic_of_supersede (hnew : new ∈ rows) (hne : old.id ≠ new.id) (hg : ∀ r, Renewed old.id r (g r))
    (hback : ReflTransGen (Supersedes rows) old.id new.id) :
    ¬ Acyclic (Supersedes (renewed (retired rows old.id new.id reason validTo now) new g)) := by
  apply not_acyclic_of_redirect (a := new.id) (b := old.id) _ _ hback
  · rintro a b ha ⟨r, hr, hid, hlink⟩
    by_cases hold : r.id = old.id
    · refine ⟨retire new.id reason validTo now r, ?_, hid, hlink⟩
      refine mem_updateWhere.mpr ⟨_, mem_updateWhere.mpr ⟨r, hr, if_pos (by simpa using hold)⟩, if_neg ?_⟩
      simpa [retire, hid] using ha
    · refine ⟨r, ?_, hid, hlink⟩
      refine mem_updateWhere.mpr ⟨r, mem_updateWhere.mpr ⟨r, hr, if_neg (by simpa using hold)⟩, if_neg ?_⟩
      simpa [hid] using ha
  · refine ⟨g new, ?_, (hg new).id, (hg new).supersedesId⟩
    exact mem_updateWhere.mpr ⟨new, mem_updateWhere.mpr ⟨new, hnew, if_neg (by simpa using hne.symm)⟩, if_pos (by simp)⟩

end Supersede

theorem kept_unlink (ids : List String) (r : MemoryRecord) :
    (unlink ids r).id = r.id ∧ (unlink ids r).isDeleted = r.isDeleted ∧ (unlink ids r).scope = r.scope ∧
      (unlink ids r).recordType = r.recordType ∧ (unlink ids r).key = r.key := by
  rw [unlink]
  split
  · exact ⟨rfl, rfl, rfl, rfl, rfl⟩
  · exact ⟨rfl, rfl, rfl, rfl, rfl⟩

theorem links_unlink {ids : List String} {r : MemoryRecord} {b : String} :
    ((unlink ids r).supersedesId = some b → r.supersedesId = some b ∧ (b ∉ ids ∨ (r.isDeleted = false ∧ r.id ∉ ids))) ∧
      ((unlink ids r).supersededById = some b → r.supersededById = some b) := by
  rw [unlink]
  split
  · constructor
    · intro hlink
      obtain ⟨hlink, hb⟩ := Option.filter_eq_some_iff.mp hlink
      exact ⟨hlink, .inl (by simpa using hb)⟩
    · intro hlink
      exact (Option.filter_eq_some_iff.mp hlink).1
  · next hkept =>
    rw [Bool.or_eq_true, not_or, decide_eq_true_eq, Bool.not_eq_true] at hkept
    exact ⟨fun hlink => ⟨hlink, .inr hkept⟩, id⟩

theorem Linked.purge {rows : List MemoryRecord} (h : Linked rows) {ids : List String}
    (hfree : ∀ id ∈ ids, isProtected rows id = false) : Linked (deleteWhere (fun r => r.id ∈ ids) (rows.map (unlink ids))) := by
  have hmem : ∀ s ∈ deleteWhere (fun r => r.id ∈ ids) (rows.map (unlink ids)), ∃ r ∈ rows, s = unlink ids r ∧ r.id ∉ ids := by
    intro s hs
    obtain ⟨hs, hid⟩ := mem_deleteWhere.mp hs
    obtain ⟨r, hr, rfl⟩ := List.mem_map.mp hs
    refine ⟨r, hr, rfl, ?_⟩
    rw [(kept_unlink ids r).1] at hid
    simpa using hid
  have hlive : ∀ r ∈ rows, isActive (unlink ids r) = true → isActive r = true := by
    intro r hr hactive
    rw [isActive_iff, (kept_unlink ids r).2.1] at hactive
    rw [isActive_iff]
    exact ⟨hactive.1, h.live r hr hactive.1⟩
  refine ⟨⟨?_, ?_, ?_, ?_⟩, ?_, ?_⟩
  · apply h.supersedes.mono
    rintro a b ⟨s, hs, hid, hlink⟩
    obtain ⟨r, hr, rfl, -⟩ := hmem s hs
    exact ⟨r, hr, (kept_unlink ids r).1.symm.trans hid, (links_unlink.1 hlink).1⟩
  · apply h.supersededBy.mono
    rintro a b ⟨s, hs, hid, hlink⟩
    obtain ⟨r, hr, rfl, -⟩ := hmem s hs
    exact ⟨r, hr, (kept_unlink ids r).1.symm.trans hid, links_unlink.2 hlink⟩
  · intro s hs hdeleted
    obtain ⟨r, hr, rfl, -⟩ := hmem s hs
    have hnone := h.live r hr ((kept_unlink ids r).2.1.symm.trans hdeleted)
    rw [unlink]
    split
    · simp [hnone]
    · exact hnone
  · intro s hs t ht hkey
    obtain ⟨r, hr, rfl, -⟩ := hmem s hs
    obtain ⟨u, hu, rfl, -⟩ := hmem t ht
    obtain ⟨-, -, hscope, htype, hkeyr⟩ := kept_unlink ids r
    obtain ⟨-, -, hscope', htype', hkeyu⟩ := kept_unlink ids u
    have hsame : SameKey r u := by
      refine ⟨hlive r hr hkey.left, hlive u hu hkey.right, ?_, ?_, ?_, ?_⟩
      · rw [← hscope, ← hscope', hkey.scope]
      · rw [← htype, ← htype', hkey.recordType]
      · rw [← hkeyr]
        exact hkey.present
      · rw [← hkeyr, ← hkeyu, hkey.key]
    rw [h.keys r hr u hu hsame]
  · apply UniqueKey.deleteWhere
    have hmap : (rows.map (unlink ids)).map MemoryRecord.id = rows.map MemoryRecord.id := by
      rw [List.map_map]
      apply List.map_congr_left
      intro r _
      exact (kept_unlink ids r).1
    rw [UniqueKey, hmap]
    exact h.ids
  · rintro a b ⟨s, hs, hid, hlink⟩
    obtain ⟨r, hr, rfl, -⟩ := hmem s hs
    obtain ⟨hlink, hstays⟩ := links_unlink.1 hlink
    obtain ⟨t, ht, htid⟩ := h.closed r.id b ⟨r, hr, rfl, hlink⟩
    have hb : b ∉ ids := by
      intro hb
      obtain hnot | ⟨hrlive, -⟩ := hstays
      · exact hnot hb
      · have hprotected : isProtected rows b = true := by
          rw [isProtected, List.any_eq_true]
          exact ⟨r, hr, by simp [hrlive, hlink]⟩
        rw [hfree b hb] at hprotected
        cases hprotected
    refine ⟨unlink ids t, mem_deleteWhere.mpr ⟨List.mem_map.mpr ⟨t, ht, rfl⟩, ?_⟩, (kept_unlink ids t).1.trans htid⟩
    rw [(kept_unlink ids t).1, htid]
    exact decide_eq_false hb

/-- The old record of a supersession does not lead to the new one. -/
def Forward (db : Database) (old new : MemoryRecord) : Prop := ¬ ReflTransGen (Supersedes db.records) old.id new.id

theorem Linked.effect {db db' : Database} (h : Linked db.records) (heffect : Effect Forward Unlinked db db') : Linked db'.records := by
  cases heffect with
  | aside hrecords _ =>
    rw [hrecords]
    exact h
  | refresh p g hg hrecords _ =>
    rw [hrecords]
    exact h.update (fun r => (hg r).1) fun r hdeleted => (hg r).2.symm.trans hdeleted
  | hide p g q hg _ _ hrecords _ =>
    rw [hrecords]
    apply h.update fun r => (hg r).1
    intro r hdeleted
    rw [(hg r).2] at hdeleted
    cases hdeleted
  | insert r hlinks hinsert hrecords _ =>
    rw [hrecords]
    exact h.insert hlinks hinsert
  | replace old r reason validTo now hold hactive hscope htype hkey hfresh hrecords _ =>
    rw [hrecords]
    exact h.replace hold hactive hscope htype hkey hfresh
  | supersede old new reason validTo now g hback hold _ _ hg hclash hrecords _ =>
    rw [hrecords]
    exact h.supersede hold hback hg hclash
  | purge ids hfree hrecords _ =>
    rw [hrecords]
    exact h.purge hfree

/-- In every run from the empty store whose puts have no links and whose supersessions lead
forward, supersession is well-founded. -/
theorem wellFounded_of_forward (env : Environment) (ops : List Op)
    (h : Guarded (step env) (Allowed env Forward Unlinked) {} ops) : WellFounded (run (step env) {} ops).records := by
  have hlinked : Linked (run (step env) {} ops).records := by
    refine h.invariant (I := fun db => Linked db.records) ?_ Linked.empty
    intro db op hdb hallowed
    have heffects := step_effects env (fun r hlinks _ => hlinks) (fun r hlinks => hlinks) hallowed
    exact effects_invariant (I := fun db => Linked db.records) (fun _ _ hdb heffect => hdb.effect heffect) heffects hdb
  exact hlinked.toWellFounded

def supersedeOnce : List Op := [.put (note "a"), .put (note "b"), .supersede "a" "b" "" none "t1"]

theorem supersedeOnce_wellFounded :
    Guarded (step permissive) (Allowed permissive Forward Unlinked) {} supersedeOnce ∧
      WellFounded (run (step permissive) {} supersedeOnce).records := by
  have hguarded : Guarded (step permissive) (Allowed permissive Forward Unlinked) {} supersedeOnce := by
    refine .cons ⟨?_, ?_⟩ (.cons ⟨?_, ?_⟩ (.cons ⟨?_, ?_⟩ (.nil _)))
    · simp [supersession]
    · rintro r ⟨⟩
      exact ⟨rfl, rfl⟩
    · simp [supersession]
    · rintro r ⟨⟩
      exact ⟨rfl, rfl⟩
    · intro pair hpair hchain
      have hnone : ∀ x y, ¬ Supersedes (step permissive (step permissive {} (.put (note "a"))) (.put (note "b"))).records x y := by
        rintro x y ⟨r, hr, -, hlink⟩
        have hrows : (step permissive (step permissive {} (.put (note "a"))) (.put (note "b"))).records =
            [storedRecord (note "a"), storedRecord (note "b")] := by decide +kernel
        rw [hrows] at hr
        simp only [List.mem_cons, List.not_mem_nil, or_false] at hr
        obtain rfl | rfl := hr
        · cases hlink
        · cases hlink
      have hids : pair.1.id = "a" ∧ pair.2.id = "b" := by
        have hsome : supersession permissive (step permissive (step permissive {} (.put (note "a"))) (.put (note "b")))
            (.supersede "a" "b" "" none "t1") = some (storedRecord (note "a"), storedRecord (note "b")) := by decide +kernel
        rw [Option.mem_def, hsome] at hpair
        cases hpair
        exact ⟨rfl, rfl⟩
      rw [hids.1, hids.2] at hchain
      obtain heq | ⟨c, hlink, -⟩ := ReflTransGen.cases_head hchain
      · exact absurd heq (by decide)
      · exact hnone _ _ hlink
    · rintro r ⟨⟩
  exact ⟨hguarded, wellFounded_of_forward permissive supersedeOnce hguarded⟩

/-- Superseded in turn by the record that it superseded, each of the two supersedes the other. -/
theorem supersedeBack_cycle :
    let db := run (step permissive) {} (supersedeOnce ++ [Op.supersede "b" "a" "" none "t2"])
    (db.records.map fun r => (r.id, r.supersedesId)) = [("a", some "b"), ("b", some "a")] ∧ ¬ WellFounded db.records := by
  intro db
  have hrows : (db.records.map fun r => (r.id, r.supersedesId)) = [("a", some "b"), ("b", some "a")] := by decide +kernel
  refine ⟨hrows, ?_⟩
  have hlink : ∀ item ∈ db.records.map fun r => (r.id, r.supersedesId), ∀ y, item.2 = some y → Supersedes db.records item.1 y := by
    intro item hitem y hy
    obtain ⟨r, hr, rfl⟩ := List.mem_map.mp hitem
    exact ⟨r, hr, rfl, hy⟩
  intro h
  have hab := hlink ("a", some "b") (by simp [hrows]) "b" rfl
  have hba := hlink ("b", some "a") (by simp [hrows]) "a" rfl
  exact h.supersedes "a" (.head hab (.single hba))

/-- A supersession that does not lead forward closes a cycle. -/
theorem not_wellFounded_of_backward (env : Environment) {db : Database} {oldId newId reason now : String}
    {expectedScope : Option String} {old new : MemoryRecord}
    (hpair : supersession env db (.supersede oldId newId reason expectedScope now) = some (old, new))
    (hstep : step env db (.supersede oldId newId reason expectedScope now) ≠ db)
    (hback : ReflTransGen (Supersedes db.records) old.id new.id) :
    ¬ WellFounded (step env db (.supersede oldId newId reason expectedScope now)).records := by
  obtain hsame | ⟨old', new', after, hpair', hold, hnew, rfl, rfl, hne, hrows, hafter⟩ :=
    supersede_cases env db oldId newId reason expectedScope now
  · exact absurd hsame hstep
  · rw [hpair] at hpair'
    cases hpair'
    obtain ⟨-, hrecords, -⟩ := supersedeRows_spec hne hrows
    rw [hafter, hrecords]
    intro h
    exact not_acyclic_of_supersede hnew hne (renewKeyed_renewed old new now) hback h.supersedes

/-- After any such run, a supersession that changes the store keeps it well-founded exactly if it
leads forward. -/
theorem supersede_wellFounded_iff (env : Environment) {ops : List Op} (h : Guarded (step env) (Allowed env Forward Unlinked) {} ops)
    {oldId newId reason now : String} {expectedScope : Option String} {old new : MemoryRecord}
    (hpair : supersession env (run (step env) {} ops) (.supersede oldId newId reason expectedScope now) = some (old, new))
    (hstep : step env (run (step env) {} ops) (.supersede oldId newId reason expectedScope now) ≠ run (step env) {} ops) :
    WellFounded (step env (run (step env) {} ops) (.supersede oldId newId reason expectedScope now)).records ↔
      Forward (run (step env) {} ops) old new := by
  have hkeep : ∀ db op, Linked db.records → Allowed env Forward Unlinked db op → Linked (step env db op).records := by
    intro db op hdb hallowed
    have heffects := step_effects env (fun r hlinks _ => hlinks) (fun r hlinks => hlinks) hallowed
    exact effects_invariant (I := fun db => Linked db.records) (fun _ _ hdb heffect => hdb.effect heffect) heffects hdb
  constructor
  · intro hwell hback
    exact not_wellFounded_of_backward env hpair hstep hback hwell
  · intro hforward
    have hlinked := h.invariant (I := fun db => Linked db.records) hkeep Linked.empty
    refine (hkeep _ _ hlinked ⟨?_, ?_⟩).toWellFounded
    · intro pair hmem
      rw [Option.mem_def, hpair] at hmem
      obtain rfl := Option.some.inj hmem
      exact hforward
    · rintro r ⟨⟩

/-- The first of two records supersedes the second, which would then supersede the first. -/
theorem supersede_wellFounded_iff_twoNotes :
    let db := run (step permissive) {} [Op.put (note "a"), .put (note "b")]
    WellFounded (step permissive db (.supersede "a" "b" "" none "t1")).records ↔
      Forward db (storedRecord (note "a")) (storedRecord (note "b")) := by
  refine supersede_wellFounded_iff permissive (.cons ⟨?_, ?_⟩ (.cons ⟨?_, ?_⟩ (.nil _))) (by decide +kernel) ?_
  · simp [supersession]
  · rintro r ⟨⟩
    exact ⟨rfl, rfl⟩
  · simp [supersession]
  · rintro r ⟨⟩
    exact ⟨rfl, rfl⟩
  · intro hsame
    have hrecords := congrArg (fun db => db.records.map MemoryRecord.supersedesId) hsame
    revert hrecords
    decide +kernel

end OpenMinion.SupersessionChains
