import Mathlib.Data.List.Perm.Subperm
import OpenMinion.MemoryMerge

/-!
# Importing a bundle twice

A record that the first import wrote carries the time of that import in its metadata, which the comparison with the
incoming record does not leave out: only the conflict mode `skip` keeps it out of the second import.
-/
namespace OpenMinion.BundleReimport
open AbortableLoops JsonValues KeyedTables MemoryMerge MemoryStore PythonText

theorem get_stamp (m : Metadata) (snapshot : MemoryBundleSnapshot) (now : String) :
    (stamp m snapshot now).get "imported_at" = .str now := by
  simp [stamp, Metadata.get, Metadata.set]

theorem get_of_sameMetadata {a b : Metadata} {key text : String} (h : sameMetadata a b = true) (hb : b.get key = .str text) :
    a.get key = .str text := by
  rw [sameMetadata, Json.pyEq, Bool.and_eq_true, beq_iff_eq] at h
  obtain ⟨hlength, hitems⟩ := h
  rw [Json.pyEqItems_iff] at hitems
  have hsubset : a.items.map Prod.fst ⊆ b.items.map Prod.fst := by
    intro k hk
    obtain ⟨item, hitem, rfl⟩ := List.mem_map.mp hk
    obtain ⟨found, hfound, -⟩ := hitems item hitem
    have hkey := List.find?_some hfound
    exact List.mem_map.mpr ⟨found, List.mem_of_find?_eq_some hfound, by simpa using hkey⟩
  -- the keys are different and as many, so that the key of the text is among them
  have hperm : (a.items.map Prod.fst).Perm (b.items.map Prod.fst) :=
    (List.subperm_of_subset a.nodup hsubset).perm_of_length_le (by simp [hlength])
  have hmem : key ∈ a.items.map Prod.fst := by
    rw [hperm.mem_iff, ← has_eq_true_iff]
    by_contra hmissing
    have hnone : b.items.find? (·.1 == key) = none := by
      rw [List.find?_eq_none]
      intro item hitem hkey
      exact hmissing (List.any_eq_true.mpr ⟨item, hitem, hkey⟩)
    simp [Metadata.get, Dict.get, hnone] at hb
  obtain ⟨item, hfind⟩ : ∃ item, a.items.find? (·.1 == key) = some item := by
    rw [← Option.isSome_iff_exists, List.find?_isSome]
    obtain ⟨item, hitem, rfl⟩ := List.mem_map.mp hmem
    exact ⟨item, hitem, by simp⟩
  have hkey : item.1 = key := by simpa using List.find?_some hfind
  obtain ⟨found, hfound, heq⟩ := hitems item (List.mem_of_find?_eq_some hfind)
  rw [hkey] at hfound
  have htext : found.2 = .str text := by simpa [Metadata.get, Dict.get, hfound] using hb
  rw [htext, Json.pyEq_str] at heq
  simp [Metadata.get, Dict.get, hfind, heq]

def StampedAt (now : String) (m : Metadata) : Prop := m.get "imported_at" = .str now

theorem stampedAt_of_recordEqual {row r : MemoryRecord} {env : Environment} {snapshot : MemoryBundleSnapshot}
    {rewrites : List (String × String)} {now : String} {idMap : IdMap} {ignoreId : Bool}
    (h : recordEqual row (rewrittenRecord env snapshot rewrites now idMap r) ignoreId = true) : StampedAt now row.metadata := by
  rw [recordEqual, Bool.and_eq_true] at h
  exact get_of_sameMetadata h.2 (get_stamp r.metadata snapshot now)

section Records

variable (i : DirectImport)

def resolvedIds (rows : List MemoryRecord) (items : List (MemoryRecord × MemoryRecord)) (idMap : IdMap) : IdMap :=
  items.foldl (fun m item =>
    match i.decision rows item.2 with
    | .skip (some id) => m.set item.1.id id
    | _ => m) idMap

def skipped (p : DirectImport.Progress) (items : List (MemoryRecord × MemoryRecord)) : DirectImport.Progress :=
  { p with
    idMap := resolvedIds i p.store.records items p.idMap
    skippedRecords := p.skippedRecords + items.length }

def DirectImport.Progress.count (p : DirectImport.Progress) : ℕ := p.importedRecords + p.conflicts.length

theorem importRecord_of_skip {p : DirectImport.Progress} {item : MemoryRecord × MemoryRecord} {target : Option String}
    (h : i.decision p.store.records item.2 = .skip target) :
    i.importRecord p item = (skipped i p [item], none) := by
  cases target with
  | none => simp [DirectImport.importRecord, skipped, resolvedIds, h]
  | some id => simp [DirectImport.importRecord, skipped, resolvedIds, h]

theorem count_importRecord (p : DirectImport.Progress) (item : MemoryRecord × MemoryRecord) :
    DirectImport.Progress.count p ≤ DirectImport.Progress.count (i.importRecord p item).1 := by
  rw [DirectImport.importRecord]
  split
  · exact le_refl _
  · simp [DirectImport.Progress.count]
  · split
    · simp [DirectImport.Progress.count, DirectImport.Progress.imported]
    · split
      · exact le_refl _
      · simp [DirectImport.Progress.count, DirectImport.Progress.imported]

theorem count_lt_of_not_skip {p : DirectImport.Progress} {item : MemoryRecord × MemoryRecord}
    (h : ∀ target, i.decision p.store.records item.2 ≠ .skip target) (hnone : (i.importRecord p item).2 = none) :
    DirectImport.Progress.count p < DirectImport.Progress.count (i.importRecord p item).1 := by
  cases hdecision : i.decision p.store.records item.2 with
  | skip target => exact absurd hdecision (h target)
  | conflict target reason => simp [DirectImport.importRecord, hdecision, DirectImport.Progress.count]
  | write superseded =>
    simp only [DirectImport.importRecord, hdecision] at hnone ⊢
    split at hnone
    · next hdry =>
      rw [if_pos hdry]
      simp [DirectImport.Progress.count, DirectImport.Progress.imported]
    · next hdry =>
      rw [if_neg hdry]
      split at hnone
      · cases hnone
      · simp [DirectImport.Progress.count, DirectImport.Progress.imported]

theorem runUntil_importRecord_of_skips {p : DirectImport.Progress} {items : List (MemoryRecord × MemoryRecord)}
    (h : ∀ item ∈ items, ∃ target, i.decision p.store.records item.2 = .skip target) :
    runUntil i.importRecord p items = (skipped i p items, none) := by
  induction items generalizing p with
  | nil => rfl
  | cons item items ih =>
    obtain ⟨target, hskip⟩ := h item (.head _)
    have hstep := importRecord_of_skip i hskip
    rw [runUntil_cons_of_none (by rw [hstep]), hstep]
    have hrest := ih (p := skipped i p [item]) fun other hother => h other (.tail _ hother)
    rw [hrest]
    simp [skipped, resolvedIds, Nat.add_assoc, Nat.add_comm 1]

theorem skips_of_count_le {p : DirectImport.Progress} {items : List (MemoryRecord × MemoryRecord)}
    (hnone : (runUntil i.importRecord p items).2 = none)
    (hcount : DirectImport.Progress.count (runUntil i.importRecord p items).1 ≤ DirectImport.Progress.count p) :
    ∀ item ∈ items, ∃ target, i.decision p.store.records item.2 = .skip target := by
  induction items generalizing p with
  | nil => simp
  | cons item items ih =>
    obtain ⟨hstep, hrest⟩ := runUntil_cons_none hnone
    rw [runUntil_cons_of_none hstep] at hcount
    have hmono : DirectImport.Progress.count (i.importRecord p item).1 ≤
        DirectImport.Progress.count (runUntil i.importRecord (i.importRecord p item).1 items).1 :=
      runUntil_invariant (I := fun q => DirectImport.Progress.count (i.importRecord p item).1 ≤ DirectImport.Progress.count q)
        (fun q other hq => hq.trans (count_importRecord i q other)) (le_refl _) items
    have hskip : ∃ target, i.decision p.store.records item.2 = .skip target := by
      by_contra hloud
      have hlt := count_lt_of_not_skip i (fun target heq => hloud ⟨target, heq⟩) hstep
      omega
    obtain ⟨target, hskip⟩ := hskip
    rw [importRecord_of_skip i hskip] at hrest hcount
    rw [List.forall_mem_cons]
    refine ⟨⟨target, hskip⟩, ?_⟩
    exact ih (p := skipped i p [item]) hrest hcount

end Records

section Rest

variable (i : DirectImport)

theorem records_importCandidate (p : Store × ℕ) (item : MemoryCandidate × ℕ) :
    (i.importCandidate p item).1.1.records = p.1.records := by
  rw [DirectImport.importCandidate]
  split
  · rfl
  · split
    · rfl
    · split
      · rfl
      · rw [store_counted, Store.candidatePut]
        split_ifs <;> rfl

theorem records_importRelation (idMap : IdMap) (p : Store × ℕ) (item : MemoryRelation × ℕ) :
    (i.importRelation idMap p item).1.1.records = p.1.records := by
  rw [DirectImport.importRelation]
  split
  · rfl
  · rfl
  · split
    · rfl
    · rw [store_counted, Store.putRelation]
      split_ifs <;> rfl

theorem records_importTierTransition (idMap : IdMap) (p : Store × ℕ) (item : MemoryTierTransition × ℕ) :
    (i.importTierTransition idMap p item).1.1.records = p.1.records := by
  rw [DirectImport.importTierTransition]
  split
  · rfl
  · rfl
  · split
    · rfl
    · rw [store_counted, Store.putTierTransition]
      split_ifs <;> rfl

/-- Both ends of the relation are records, or it is left out. -/
def RelationPasses (rows : List MemoryRecord) (idMap : IdMap) (r : MemoryRelation) : Prop :=
  idMap.get r.sourceRecordId = "" ∨ idMap.get r.targetRecordId = "" ∨
    (i.env.validRelation (idMap.get r.sourceRecordId) (idMap.get r.targetRecordId) = true ∧
      (i.dryRun = true ∨ ((lookup MemoryRecord.id (idMap.get r.sourceRecordId) rows).isSome = true ∧
        (lookup MemoryRecord.id (idMap.get r.targetRecordId) rows).isSome = true)))

def TransitionPasses (rows : List MemoryRecord) (idMap : IdMap) (t : MemoryTierTransition) : Prop :=
  idMap.get t.recordId = "" ∨
    (i.env.validScope (rewriteScope i.scopeRewrites t.scope) = true ∧
      (i.dryRun = true ∨ (lookup MemoryRecord.id (idMap.get t.recordId) rows).isSome = true))

theorem importRelation_eq_none_iff (idMap : IdMap) (p : Store × ℕ) (item : MemoryRelation × ℕ) :
    (i.importRelation idMap p item).2 = none ↔ RelationPasses i p.1.records idMap item.1 := by
  by_cases hsource : idMap.get item.1.sourceRecordId = ""
  · simp [DirectImport.importRelation, DirectImport.rewriteRelation, RelationPasses, hsource]
  · by_cases htarget : idMap.get item.1.targetRecordId = ""
    · simp [DirectImport.importRelation, DirectImport.rewriteRelation, RelationPasses, htarget]
    · cases hvalid : i.env.validRelation (idMap.get item.1.sourceRecordId) (idMap.get item.1.targetRecordId) with
      | false => simp [DirectImport.importRelation, DirectImport.rewriteRelation, RelationPasses, hsource, htarget, hvalid]
      | true =>
        cases hdry : i.dryRun with
        | true => simp [DirectImport.importRelation, DirectImport.rewriteRelation, RelationPasses, hsource, htarget, hvalid, hdry]
        | false =>
          cases hs : lookup MemoryRecord.id (idMap.get item.1.sourceRecordId) p.1.records <;>
            cases ht : lookup MemoryRecord.id (idMap.get item.1.targetRecordId) p.1.records <;>
            simp [DirectImport.importRelation, DirectImport.rewriteRelation, RelationPasses, hsource, htarget, hvalid, hdry,
              Store.putRelation, Store.get, hs, ht]

theorem importTierTransition_eq_none_iff (idMap : IdMap) (p : Store × ℕ) (item : MemoryTierTransition × ℕ) :
    (i.importTierTransition idMap p item).2 = none ↔ TransitionPasses i p.1.records idMap item.1 := by
  by_cases hid : idMap.get item.1.recordId = ""
  · simp [DirectImport.importTierTransition, DirectImport.rewriteTierTransition, TransitionPasses, hid]
  · cases hvalid : i.env.validScope (rewriteScope i.scopeRewrites item.1.scope) with
    | false =>
      simp [DirectImport.importTierTransition, DirectImport.rewriteTierTransition, TransitionPasses, hid, hvalid]
    | true =>
      cases hdry : i.dryRun with
      | true =>
        simp [DirectImport.importTierTransition, DirectImport.rewriteTierTransition, TransitionPasses, hid, hvalid, hdry]
      | false =>
        cases hr : lookup MemoryRecord.id (idMap.get item.1.recordId) p.1.records <;>
          simp [DirectImport.importTierTransition, DirectImport.rewriteTierTransition, TransitionPasses, hid, hvalid, hdry,
            Store.putTierTransition, Store.get, hr]

def rewrittenCandidate (c : MemoryCandidate) : MemoryCandidate :=
  { c with
    proposedScope := rewriteScope i.scopeRewrites c.proposedScope
    metadata := stamp c.metadata i.snapshot i.call.now }

theorem rewriteCandidate_preserve (hid : i.idMode = .preserve) (item : MemoryCandidate × ℕ) :
    i.rewriteCandidate item = if i.env.validScope (rewriteScope i.scopeRewrites item.1.proposedScope) then
      .ok (rewrittenCandidate i item.1) else .error .invalidModel := by
  simp [DirectImport.rewriteCandidate, rewrittenCandidate, hid]

theorem fields_of_candidateEqual {c d : MemoryCandidate} (h : candidateEqual c d = true) :
    c.candidateId = d.candidateId ∧ c.status = d.status ∧ c.evidenceRefs = d.evidenceRefs ∧ sameMetadata c.metadata d.metadata = true := by
  simp only [candidateEqual, Bool.and_eq_true, decide_eq_true_eq] at h
  obtain ⟨⟨⟨hfields, -⟩, hmetadata⟩, -⟩ := h
  rw [MemoryCandidate.mk.injEq] at hfields
  exact ⟨by tauto, by tauto, by tauto, hmetadata⟩

theorem importCandidate_cases (hid : i.idMode = .preserve) (hdry : i.dryRun = false) (p : Store × ℕ) (item : MemoryCandidate × ℕ)
    (hnone : (i.importCandidate p item).2 = none) :
    i.env.validScope (rewriteScope i.scopeRewrites item.1.proposedScope) = true ∧
    ((∃ existing, p.1.candidateGet item.1.candidateId = some existing ∧
        candidateEqual existing (rewrittenCandidate i item.1) = true ∧ (i.importCandidate p item).1 = p) ∨
      (regresses p.1.candidates item.1 = false ∧ i.env.refsActive item.1.candidateId item.1.evidenceRefs = true ∧
        (i.importCandidate p item).1.1.candidates = upsertRow MemoryCandidate.candidateId
          (storedCandidate (rewrittenCandidate i item.1) i.call.now) p.1.candidates)) := by
  simp only [DirectImport.importCandidate, rewriteCandidate_preserve i hid, hdry] at hnone ⊢
  split at hnone
  · next heq =>
    split at heq
    · cases heq
    · cases hnone
  · next c heq =>
    split at heq
    · next hvalid =>
      cases heq
      refine ⟨hvalid, ?_⟩
      split at hnone
      · next hequal =>
        obtain ⟨existing, hget, hequal⟩ := (Option.any_eq_true _ _).mp hequal
        exact .inl ⟨existing, hget, hequal, by simp [hget, hequal]⟩
      · next hequal =>
        rw [if_neg Bool.false_ne_true, counted_eq_none_iff, Store.candidatePut] at hnone
        split at hnone
        · cases hnone
        · next hregress =>
          right
          have hactive : i.env.refsActive item.1.candidateId item.1.evidenceRefs = true := by
            by_contra hinactive
            simp [rewrittenCandidate, hinactive] at hnone
          refine ⟨Bool.eq_false_iff.mpr hregress, hactive, ?_⟩
          rw [if_neg hequal, if_neg Bool.false_ne_true, store_counted, Store.candidatePut, if_neg hregress]
    · cases heq

theorem importCandidate_eq_none (hid : i.idMode = .preserve) {p : Store × ℕ} {item : MemoryCandidate × ℕ}
    (hvalid : i.env.validScope (rewriteScope i.scopeRewrites item.1.proposedScope) = true)
    (hopen : regresses p.1.candidates item.1 = false)
    (hactive : i.env.refsActive item.1.candidateId item.1.evidenceRefs = true) : (i.importCandidate p item).2 = none := by
  have hopen' : regresses p.1.candidates (rewrittenCandidate i item.1) = false := hopen
  have hactive' : i.env.refsActive (rewrittenCandidate i item.1).candidateId (rewrittenCandidate i item.1).evidenceRefs = true := hactive
  rw [DirectImport.importCandidate, rewriteCandidate_preserve i hid, if_pos hvalid]
  simp only
  split
  · rfl
  · split
    · rfl
    · rw [counted_eq_none_iff, Store.candidatePut, hopen', if_neg Bool.false_ne_true, hactive', if_pos rfl]

theorem regresses_upsertRow (rows : List MemoryCandidate) (c d : MemoryCandidate) (now : String) :
    regresses (upsertRow MemoryCandidate.candidateId (storedCandidate (rewrittenCandidate i c) now) rows) d =
      if d.candidateId = c.candidateId then isTerminal c && !isTerminal d else regresses rows d := by
  by_cases hsame : d.candidateId = c.candidateId
  · have hlookup := @lookup_upsertRow_self _ _ MemoryCandidate.candidateId _ (storedCandidate (rewrittenCandidate i c) now) rows
    rw [if_pos hsame, regresses, hsame]
    exact congrArg (fun row => (Option.map isTerminal row).getD false && !isTerminal d) hlookup
  · have hne : d.candidateId ≠ (storedCandidate (rewrittenCandidate i c) now).candidateId := hsame
    rw [if_neg hsame, regresses, lookup_upsertRow_of_ne hne, regresses]

/-- No candidate opens one that was closed, in the store or before it in the bundle, and the
artifacts of the candidates are there. -/
structure CandidatesPass (rows : List MemoryCandidate) (candidates : List MemoryCandidate) : Prop where
  scopes : ∀ c ∈ candidates, i.env.validScope (rewriteScope i.scopeRewrites c.proposedScope) = true
  rows : i.dryRun = false → ∀ c ∈ candidates,
    regresses rows c = false ∧ i.env.refsActive c.candidateId c.evidenceRefs = true
  order : i.dryRun = false → candidates.Pairwise fun c d =>
    c.candidateId = d.candidateId → isTerminal c = true → isTerminal d = true

theorem candidates_run_of_pass (hid : i.idMode = .preserve) (hdry : i.dryRun = false) {p : Store × ℕ}
    {items : List (MemoryCandidate × ℕ)} (h : CandidatesPass i p.1.candidates (items.map Prod.fst)) :
    (runUntil i.importCandidate p items).2 = none := by
  induction items generalizing p with
  | nil => rfl
  | cons item items ih =>
    obtain ⟨hscope, hscopes⟩ := List.forall_mem_cons.mp h.scopes
    obtain ⟨⟨hopen, hactive⟩, hrows⟩ := List.forall_mem_cons.mp (h.rows hdry)
    obtain ⟨hfirst, horder⟩ := List.pairwise_cons.mp (h.order hdry)
    have hnone := importCandidate_eq_none i hid hscope hopen hactive
    rw [runUntil_cons_of_none hnone]
    obtain ⟨-, ⟨existing, -, -, hsame⟩ | ⟨-, -, hput⟩⟩ := importCandidate_cases i hid hdry p item hnone
    · rw [hsame]
      exact ih ⟨hscopes, fun _ => hrows, fun _ => horder⟩
    · refine ih ⟨hscopes, fun _ c hc => ⟨?_, (hrows c hc).2⟩, fun _ => horder⟩
      rw [hput, regresses_upsertRow]
      split
      · next hsame =>
        cases hterminal : isTerminal item.1 with
        | false => rfl
        | true => simp [hfirst c hc hsame.symm hterminal]
      · exact (hrows c hc).1

theorem of_candidateEqual {s : Store} {existing c : MemoryCandidate} (hget : s.candidateGet c.candidateId = some existing)
    (hequal : candidateEqual existing (rewrittenCandidate i c) = true) :
    existing ∈ s.candidates ∧ StampedAt i.call.now existing.metadata ∧ isTerminal existing = isTerminal c ∧
      existing.candidateId = c.candidateId ∧ existing.evidenceRefs = c.evidenceRefs := by
  obtain ⟨hid, hstatus, hrefs, hmetadata⟩ := fields_of_candidateEqual hequal
  refine ⟨(lookup_some hget).1, get_of_sameMetadata hmetadata (get_stamp c.metadata i.snapshot i.call.now), ?_, hid, hrefs⟩
  rw [isTerminal, isTerminal, hstatus]
  rfl

/-- Conversely, when no row was stamped before, the stamped rows are those of the loop. -/
theorem candidates_pass_of_run (hid : i.idMode = .preserve) (hdry : i.dryRun = false) {p : Store × ℕ}
    {items : List (MemoryCandidate × ℕ)}
    (hstamped : ∀ row ∈ p.1.candidates, StampedAt i.call.now row.metadata → i.env.refsActive row.candidateId row.evidenceRefs = true)
    (hnone : (runUntil i.importCandidate p items).2 = none) : CandidatesPass i p.1.candidates (items.map Prod.fst) := by
  induction items generalizing p with
  | nil => exact ⟨by simp, by simp, by simp⟩
  | cons item items ih =>
    obtain ⟨hstep, hrest⟩ := runUntil_cons_none hnone
    obtain ⟨hscope, ⟨existing, hget, hequal, hsame⟩ | ⟨hopen, hactive, hput⟩⟩ := importCandidate_cases i hid hdry p item hstep
    · rw [hsame] at hrest
      have hpass := ih hstamped hrest
      obtain ⟨hmem, hstamp, hterminal, hcandidate, hrefs⟩ := of_candidateEqual i hget hequal
      have hlookup : lookup MemoryCandidate.candidateId item.1.candidateId p.1.candidates = some existing := hget
      refine ⟨List.forall_mem_cons.mpr ⟨hscope, hpass.scopes⟩, fun _ => List.forall_mem_cons.mpr ⟨⟨?_, ?_⟩, hpass.rows hdry⟩,
        fun _ => List.pairwise_cons.mpr ⟨?_, hpass.order hdry⟩⟩
      · simp [regresses, hlookup, hterminal]
      · rw [← hcandidate, ← hrefs]
        exact hstamped existing hmem hstamp
      · intro d hd hcd hclosed
        have hopen := (hpass.rows hdry d hd).1
        rw [regresses, ← hcd, hlookup] at hopen
        simpa [hterminal, hclosed] using hopen
    · have hkeep : ∀ row ∈ (i.importCandidate p item).1.1.candidates, StampedAt i.call.now row.metadata →
          i.env.refsActive row.candidateId row.evidenceRefs = true := by
        intro row hrow hstamp
        rw [hput] at hrow
        obtain rfl | hold := mem_upsertRow hrow
        · exact hactive
        · exact hstamped row hold hstamp
      have hpass := ih hkeep hrest
      rw [hput] at hpass
      have hseen : ∀ d ∈ items.map Prod.fst, item.1.candidateId = d.candidateId → isTerminal item.1 = true → isTerminal d = true := by
        intro d hd hcd hclosed
        have hopen := (hpass.rows hdry d hd).1
        rw [regresses_upsertRow, if_pos hcd.symm] at hopen
        simpa [hclosed] using hopen
      refine ⟨List.forall_mem_cons.mpr ⟨hscope, hpass.scopes⟩,
        fun _ => List.forall_mem_cons.mpr ⟨⟨hopen, hactive⟩, fun d hd => ⟨?_, (hpass.rows hdry d hd).2⟩⟩,
        fun _ => List.pairwise_cons.mpr ⟨hseen, hpass.order hdry⟩⟩
      by_cases hcd : d.candidateId = item.1.candidateId
      · -- the row of the id closes the candidate before, and that one closes this one
        rw [regresses, ← hcd] at hopen
        rw [regresses]
        cases hclosed : isTerminal item.1 with
        | true => simp [hseen d hd hcd.symm hclosed]
        | false =>
          rw [hclosed, Bool.not_false, Bool.and_true] at hopen
          simp [hopen]
      · have hafter := (hpass.rows hdry d hd).1
        rwa [regresses_upsertRow, if_neg hcd] at hafter

theorem candidates_run_of_dryRun (hid : i.idMode = .preserve) (hdry : i.dryRun = true) (p : Store × ℕ)
    (items : List (MemoryCandidate × ℕ)) : (runUntil i.importCandidate p items).2 = none ↔
      ∀ item ∈ items, i.env.validScope (rewriteScope i.scopeRewrites item.1.proposedScope) = true := by
  have hstep : ∀ (p : Store × ℕ) (item : MemoryCandidate × ℕ), (i.importCandidate p item).2 = none ↔
      i.env.validScope (rewriteScope i.scopeRewrites item.1.proposedScope) = true := by
    intro p item
    rw [DirectImport.importCandidate, rewriteCandidate_preserve i hid]
    cases hvalid : i.env.validScope (rewriteScope i.scopeRewrites item.1.proposedScope) with
    | false => simp
    | true =>
      simp only [if_true, hdry, iff_true]
      split <;> rfl
  exact runUntil_eq_none_iff (fun _ => ()) (fun _ (item : MemoryCandidate × ℕ) =>
    i.env.validScope (rewriteScope i.scopeRewrites item.1.proposedScope) = true) (fun _ _ => Subsingleton.elim _ _) hstep p items

/-- Everything that an import checks after the records. -/
structure RestPasses (s : Store) (idMap : IdMap) : Prop where
  candidates : CandidatesPass i s.candidates i.snapshot.candidates
  relations : ∀ r ∈ i.snapshot.relations, RelationPasses i s.records idMap r
  tierTransitions : ∀ t ∈ i.snapshot.tierTransitions, TransitionPasses i s.records idMap t

theorem candidates_run (hid : i.idMode = .preserve) (s : Store) (h : CandidatesPass i s.candidates i.snapshot.candidates) :
    (runUntil i.importCandidate (s, 0) i.snapshot.candidates.zipIdx).2 = none := by
  cases hdry : i.dryRun with
  | true =>
    rw [candidates_run_of_dryRun i hid hdry]
    intro item hitem
    exact h.scopes item.1 (List.fst_mem_of_mem_zipIdx hitem)
  | false =>
    apply candidates_run_of_pass i hid hdry
    rwa [List.zipIdx_map_fst]

theorem candidates_pass (hid : i.idMode = .preserve) (s : Store)
    (hfresh : ∀ row ∈ s.candidates, ¬ StampedAt i.call.now row.metadata)
    (h : (runUntil i.importCandidate (s, 0) i.snapshot.candidates.zipIdx).2 = none) :
    CandidatesPass i s.candidates i.snapshot.candidates := by
  cases hdry : i.dryRun with
  | true =>
    rw [candidates_run_of_dryRun i hid hdry] at h
    refine ⟨?_, by simp [hdry], by simp [hdry]⟩
    rw [← List.zipIdx_map_fst 0 i.snapshot.candidates, List.forall_mem_map]
    exact h
  | false =>
    have hpass := candidates_pass_of_run i hid hdry (p := (s, 0)) (fun row hrow hstamp => absurd hstamp (hfresh row hrow)) h
    rwa [List.zipIdx_map_fst] at hpass

theorem relations_run_iff (idMap : IdMap) (s : Store) :
    (runUntil (i.importRelation idMap) (s, 0) i.snapshot.relations.zipIdx).2 = none ↔
      ∀ r ∈ i.snapshot.relations, RelationPasses i s.records idMap r := by
  have hrun := runUntil_eq_none_iff (fun p : Store × ℕ => p.1.records) (fun rows item => RelationPasses i rows idMap item.1)
    (records_importRelation i idMap) (importRelation_eq_none_iff i idMap) (s, 0) i.snapshot.relations.zipIdx
  rw [hrun, ← List.forall_mem_map (f := Prod.fst) (P := fun r => RelationPasses i s.records idMap r), List.zipIdx_map_fst]

theorem tierTransitions_run_iff (idMap : IdMap) (s : Store) :
    (runUntil (i.importTierTransition idMap) (s, 0) i.snapshot.tierTransitions.zipIdx).2 = none ↔
      ∀ t ∈ i.snapshot.tierTransitions, TransitionPasses i s.records idMap t := by
  have hrun := runUntil_eq_none_iff (fun p : Store × ℕ => p.1.records) (fun rows item => TransitionPasses i rows idMap item.1)
    (records_importTierTransition i idMap) (importTierTransition_eq_none_iff i idMap) (s, 0) i.snapshot.tierTransitions.zipIdx
  rw [hrun, ← List.forall_mem_map (f := Prod.fst) (P := fun t => TransitionPasses i s.records idMap t), List.zipIdx_map_fst]

theorem importRest_spec (s : Store) (idMap : IdMap) :
    (i.importRest s idMap).2.records = s.records ∧
    ((∃ counts, (i.importRest s idMap).1 = .ok counts) ↔
      (runUntil i.importCandidate (s, 0) i.snapshot.candidates.zipIdx).2 = none ∧
      (∀ r ∈ i.snapshot.relations, RelationPasses i s.records idMap r) ∧
      ∀ t ∈ i.snapshot.tierTransitions, TransitionPasses i s.records idMap t) := by
  have hcandidates : (runUntil i.importCandidate (s, 0) i.snapshot.candidates.zipIdx).1.1.records = s.records :=
    view_runUntil (fun p : Store × ℕ => p.1.records) (records_importCandidate i) (s, 0) _
  rw [DirectImport.importRest]
  dsimp only
  generalize runUntil i.importCandidate (s, 0) i.snapshot.candidates.zipIdx = candidates at hcandidates ⊢
  have hrelations : (runUntil (i.importRelation idMap) (candidates.1.1, 0) i.snapshot.relations.zipIdx).1.1.records = s.records :=
    (view_runUntil (fun p : Store × ℕ => p.1.records) (records_importRelation i idMap) (candidates.1.1, 0) _).trans hcandidates
  have hcheck := relations_run_iff i idMap candidates.1.1
  rw [hcandidates] at hcheck
  rw [← hcheck]
  generalize runUntil (i.importRelation idMap) (candidates.1.1, 0) i.snapshot.relations.zipIdx = relations at hrelations ⊢
  have htransitions : (runUntil (i.importTierTransition idMap) (relations.1.1, 0) i.snapshot.tierTransitions.zipIdx).1.1.records =
      s.records :=
    (view_runUntil (fun p : Store × ℕ => p.1.records) (records_importTierTransition i idMap) (relations.1.1, 0) _).trans hrelations
  have hcheck := tierTransitions_run_iff i idMap relations.1.1
  rw [hrelations] at hcheck
  rw [← hcheck]
  generalize runUntil (i.importTierTransition idMap) (relations.1.1, 0) i.snapshot.tierTransitions.zipIdx = transitions at htransitions ⊢
  cases hc : candidates.2 with
  | some e => simp [hcandidates]
  | none =>
    cases hr : relations.2 with
    | some e => simp [hrelations]
    | none =>
      cases ht : transitions.2 with
      | some e => simp [htransitions]
      | none => simp [htransitions]

end Rest

section NoOps

variable (i : DirectImport)

/-- An import that returns without a record imported or a conflict, and leaves the live records. -/
def IsNoOp (env : Environment) (now : String) (s : Store) (outcome : Except ImportError MemoryBundleImportResult × Store) : Prop :=
  ∃ result, outcome.1 = .ok result ∧ result.importedRecords = 0 ∧ result.conflicts = [] ∧
    outcome.2.records.filter (isLive env now) = s.records.filter (isLive env now)

theorem isNoOp_importDirectMode_iff (options : MemoryBundleImportOptions) (s : Store) :
    IsNoOp i.env i.call.now s (importDirectMode i options s) ↔
      (i.importRecords s).2 = none ∧ DirectImport.Progress.count (i.importRecords s).1 = 0 ∧
      (∃ counts, (i.importRest (i.importRecords s).1.store (i.importRecords s).1.idMap).1 = .ok counts) ∧
      (i.importRecords s).1.store.records.filter (isLive i.env i.call.now) = s.records.filter (isLive i.env i.call.now) := by
  rw [importDirectMode, IsNoOp]
  split
  · next heq => simp [heq]
  · next p heq =>
    have hrecords := (importRest_spec i p.store p.idMap).1
    simp only [heq, true_and]
    by_cases hconflicts : p.conflicts = []
    · rw [if_neg (not_not.mpr hconflicts)]
      split
      · next hrest => simp [hrest]
      · next hrest =>
        rw [hrest] at hrecords
        simp only at hrecords
        simp [hrest, hrecords, DirectImport.Progress.count, hconflicts]
    · rw [if_pos hconflicts]
      simp [DirectImport.Progress.count, hconflicts]

def Held (rows : List MemoryRecord) (r : MemoryRecord) : Prop :=
  (lookup MemoryRecord.id r.id rows).isSome = true ∨
    (i.existingKey rows (rewrittenRecord i.env i.snapshot i.scopeRewrites i.call.now [] r)).isSome = true

theorem decision_skip_iff_held (hmode : i.conflictMode = .skip) (rows : List MemoryRecord) (r : MemoryRecord) :
    (∃ target, i.decision rows (rewrittenRecord i.env i.snapshot i.scopeRewrites i.call.now [] r) = .skip target) ↔
      Held i rows r := by
  have hid : (rewrittenRecord i.env i.snapshot i.scopeRewrites i.call.now [] r).id = r.id := rfl
  rw [Held, DirectImport.decision, DirectImport.equalRow, DirectImport.conflictOf, DirectImport.existingExact, hid, hmode]
  cases hexact : lookup MemoryRecord.id r.id rows with
  | some row =>
    simp only [Option.isSome_some, true_or, iff_true]
    split
    · exact ⟨_, rfl⟩
    · exact ⟨_, rfl⟩
  | none =>
    cases hkey : i.existingKey rows (rewrittenRecord i.env i.snapshot i.scopeRewrites i.call.now [] r) with
    | none => simp
    | some row =>
      have hmem : row ∈ rows := by
        rw [DirectImport.existingKey] at hkey
        split at hkey
        · exact mem_of_findRecordByNormalizedKey i.env hkey
        · cases hkey
      have hne : row.id ≠ r.id := fun heq => lookup_eq_none.mp hexact row hmem heq
      simp only [Option.isSome_some, or_true, iff_true]
      have hfilter : (some row).filter (fun row => row.id ≠ r.id) = some row := Option.filter_some_pos (by simpa using hne)
      rw [hfilter]
      split
      · exact ⟨_, rfl⟩
      · exact ⟨_, rfl⟩

def Unstamped (now : String) (s : Store) : Prop :=
  (∀ row ∈ s.records, ¬ StampedAt now row.metadata) ∧ ∀ row ∈ s.candidates, ¬ StampedAt now row.metadata

theorem equalRow_eq_none {rows : List MemoryRecord} (h : ∀ row ∈ rows, ¬ StampedAt i.call.now row.metadata) (idMap : IdMap)
    (r : MemoryRecord) : i.equalRow rows (rewrittenRecord i.env i.snapshot i.scopeRewrites i.call.now idMap r) = none := by
  rw [DirectImport.equalRow, Option.or_eq_none_iff, Option.filter_eq_none_iff, Option.filter_eq_none_iff]
  constructor
  · intro row hrow hequal
    exact h row (lookup_some hrow).1 (stampedAt_of_recordEqual hequal)
  · intro row hrow hequal
    rw [DirectImport.existingKey] at hrow
    split at hrow
    · exact h row (mem_of_findRecordByNormalizedKey i.env hrow) (stampedAt_of_recordEqual hequal)
    · cases hrow

theorem decision_ne_skip (hmode : i.conflictMode ≠ .skip) {rows : List MemoryRecord}
    (h : ∀ row ∈ rows, ¬ StampedAt i.call.now row.metadata) (idMap : IdMap) (r : MemoryRecord) (target : Option String) :
    i.decision rows (rewrittenRecord i.env i.snapshot i.scopeRewrites i.call.now idMap r) ≠ .skip target := by
  rw [DirectImport.decision, equalRow_eq_none i h]
  simp only
  split <;> simp_all

theorem prepareRecordIdMap_skip (rows records : List MemoryRecord) (call : Call) :
    prepareRecordIdMap rows records .skip .preserve call = [] := by
  rw [prepareRecordIdMap]
  simp only [Bool.false_eq_true, if_false]
  exact List.foldl_fixed _

/-- The store repeats the import: there are no records, or they are skipped and each is still
held; and the checks of the import pass. -/
structure Repeats (s : Store) : Prop where
  scopes : scopesAccepted i.env i.scopeRewrites i.snapshot.records = true
  records : i.snapshot.records = [] ∨ (i.conflictMode = .skip ∧ ∀ r ∈ i.snapshot.records, Held i s.records r)
  rest : RestPasses i s (resolvedIds i s.records (i.items []) [])

theorem importRecords_of_skips (hid : i.idMode = .preserve) {s : Store}
    (h : i.snapshot.records = [] ∨ (i.conflictMode = .skip ∧ ∀ r ∈ i.snapshot.records, Held i s.records r)) :
    i.importRecords s = (skipped i { store := s, idMap := [] } (i.items []), none) := by
  obtain hempty | ⟨hmode, hheld⟩ := h
  · simp [DirectImport.importRecords, DirectImport.items, hempty, prepareRecordIdMap, skipped, resolvedIds]
  · rw [DirectImport.importRecords, hid, hmode, prepareRecordIdMap_skip]
    apply runUntil_importRecord_of_skips
    intro item hitem
    obtain ⟨r, hr, rfl⟩ := List.mem_map.mp hitem
    exact (decision_skip_iff_held i hmode s.records r).mpr (hheld r hr)

theorem isNoOp_of_repeats (hid : i.idMode = .preserve) (options : MemoryBundleImportOptions) {s : Store} (h : Repeats i s) :
    IsNoOp i.env i.call.now s (importDirectMode i options s) := by
  have hrecords := importRecords_of_skips i hid h.records
  rw [isNoOp_importDirectMode_iff, hrecords]
  refine ⟨rfl, rfl, ?_, rfl⟩
  exact (importRest_spec i s _).2.mpr ⟨candidates_run i hid s h.rest.candidates, h.rest.relations, h.rest.tierTransitions⟩

theorem repeats_of_isNoOp (hid : i.idMode = .preserve) (options : MemoryBundleImportOptions) {s : Store}
    (hfresh : Unstamped i.call.now s) (hscopes : scopesAccepted i.env i.scopeRewrites i.snapshot.records = true)
    (h : IsNoOp i.env i.call.now s (importDirectMode i options s)) : Repeats i s := by
  rw [isNoOp_importDirectMode_iff] at h
  obtain ⟨hnone, hcount, hrest, -⟩ := h
  have hrecords : i.snapshot.records = [] ∨ (i.conflictMode = .skip ∧ ∀ r ∈ i.snapshot.records, Held i s.records r) := by
    have hskips := skips_of_count_le i hnone (by rw [DirectImport.importRecords] at hcount; rw [hcount]; exact Nat.zero_le _)
    rw [DirectImport.items, List.forall_mem_map] at hskips
    by_cases hmode : i.conflictMode = .skip
    · right
      refine ⟨hmode, fun r hr => ?_⟩
      rw [← decision_skip_iff_held i hmode]
      simpa [hmode, hid, prepareRecordIdMap_skip] using hskips r hr
    · left
      rw [List.eq_nil_iff_forall_not_mem]
      intro r hr
      obtain ⟨target, hskip⟩ := hskips r hr
      exact decision_ne_skip i hmode hfresh.1 _ r target hskip
  rw [importRecords_of_skips i hid hrecords] at hrest
  obtain ⟨hcandidates, hrelations, htransitions⟩ := (importRest_spec i s _).2.mp hrest
  exact ⟨hscopes, hrecords, candidates_pass i hid s hfresh.2 hcandidates, hrelations, htransitions⟩

end NoOps

section Twice

variable (env : Environment) (snapshot : MemoryBundleSnapshot) (mode : ConflictMode) (rewrites : List (String × String))
  (dryRun : Bool)

def directOptions : MemoryBundleImportOptions :=
  { scopeRewrites := rewrites, trustMode := "direct", conflictMode := mode.text, idMode := "preserve", dryRun }

def directImport (call : Call) : DirectImport :=
  { env, call, snapshot, scopeRewrites := rewrites, conflictMode := mode, idMode := .preserve, dryRun }

theorem importSnapshot_directOptions (call : Call) (s : Store) :
    importSnapshot env snapshot (directOptions mode rewrites dryRun) call s =
      if scopesAccepted env rewrites snapshot.records then
        importDirectMode (directImport env snapshot mode rewrites dryRun call) (directOptions mode rewrites dryRun) s
      else (.error .invalidModel, s) := by
  have htrust : TrustMode.ofText (directOptions mode rewrites dryRun).trustMode = some .direct := rfl
  have hconflict : ConflictMode.ofText (directOptions mode rewrites dryRun).conflictMode = some mode := mode.ofText_text
  have hid : IdMode.ofText (directOptions mode rewrites dryRun).idMode = some .preserve := rfl
  rw [importSnapshot, htrust, hconflict, hid]
  rfl

/-- After a first import the second is a no-op when the store repeats it, and only then, unless a
row of the store already carries the time of the second. -/
theorem second_import_isNoOp_iff (first second : Call) (s : Store) :
    let options := directOptions mode rewrites dryRun
    let once := (importSnapshot env snapshot options first s).2
    let again := importSnapshot env snapshot options second once
    let i := directImport env snapshot mode rewrites dryRun second
    (Repeats i once → IsNoOp env second.now once again) ∧
      (Unstamped second.now once → (IsNoOp env second.now once again ↔ Repeats i once)) := by
  intro options once again i
  have hsufficient : Repeats i once → IsNoOp env second.now once again := by
    intro h
    have hagain : again = importDirectMode i options once :=
      (importSnapshot_directOptions env snapshot mode rewrites dryRun second once).trans (if_pos h.scopes)
    rw [hagain]
    exact isNoOp_of_repeats i rfl options h
  refine ⟨hsufficient, fun hfresh => ⟨?_, hsufficient⟩⟩
  intro h
  have hagain : again = _ := importSnapshot_directOptions env snapshot mode rewrites dryRun second once
  rw [hagain] at h
  split at h
  · next hscopes => exact repeats_of_isNoOp i rfl options hfresh hscopes h
  · obtain ⟨result, herror, -⟩ := h
    cases herror

end Twice

def plainEnvironment : Environment :=
  ⟨fun _ => .null, fun _ => true, fun _ _ => true, fun _ _ => false, id, List.Perm.refl, fun _ _ => true⟩

def noteBundle : MemoryBundleSnapshot where
  bundleId := "b"
  records := [{ id := "m", scope := "agent:a", recordType := "fact", content := .str "note", createdAt := "t0", updatedAt := "t0" }]

def noteCall (time : String) : Call := ⟨time, fun kind _ => kind ++ "_" ++ time⟩

def pairBundle : MemoryBundleSnapshot where
  bundleId := "b"
  records := [{ id := "m", scope := "agent:a", recordType := "fact", content := .str "note", createdAt := "t0", updatedAt := "t0" },
    { id := "n", scope := "agent:a", recordType := "fact", content := .str "other", createdAt := "t0", updatedAt := "t0" }]

/-- In the mode `skip` the second import of two records changes nothing. -/
theorem second_import_skips :
    let options := directOptions .skip [] false
    let once := (importSnapshot plainEnvironment pairBundle options (noteCall "t1") {}).2
    IsNoOp plainEnvironment "t2" once (importSnapshot plainEnvironment pairBundle options (noteCall "t2") once) := by
  refine (second_import_isNoOp_iff plainEnvironment pairBundle .skip [] false (noteCall "t1") (noteCall "t2") {}).1 ?_
  refine ⟨by decide +kernel, .inr ⟨rfl, ?_⟩, ⟨⟨?_, ?_, fun _ => .nil⟩, ?_, ?_⟩⟩
  · intro r hr
    rcases List.mem_pair.mp hr with rfl | rfl
    · exact .inl (by decide +kernel)
    · exact .inl (by decide +kernel)
  · rintro c ⟨⟩
  · rintro _ c ⟨⟩
  · rintro r ⟨⟩
  · rintro t ⟨⟩

/-- The second import in the mode `supersede` takes the row of the first for another record and writes a copy. -/
theorem second_import_duplicates :
    let options := directOptions .supersede [] false
    let once := (importSnapshot plainEnvironment noteBundle options (noteCall "t1") {}).2
    let again := importSnapshot plainEnvironment noteBundle options (noteCall "t2") once
    (once.records.map fun r => (r.id, r.content)) = [("m", .str "note")] ∧
    (again.2.records.map fun r => (r.id, r.content)) = [("m", .str "note"), ("mem_t2", .str "note")] ∧
    ¬ IsNoOp plainEnvironment "t2" once again := by
  refine ⟨by decide +kernel, by decide +kernel, ?_⟩
  rintro ⟨result, -, -, -, hlive⟩
  have hlength := congrArg List.length hlive
  revert hlength
  decide +kernel

end OpenMinion.BundleReimport
