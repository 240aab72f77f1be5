import OpenMinion.BundleReimport

/-!
# Rejected imports

What an import that is refused or raises leaves behind. Every write is committed by itself, so
that the store is as before only when the import is rejected before its first write.
-/
namespace OpenMinion.RejectedImports
open AbortableLoops BundleReimport JsonValues KeyedTables MemoryMerge MemoryStore

section Direct

variable (i : DirectImport)

def recordKind (s : Store) (item : MemoryRecord × MemoryRecord) : Kind :=
  match i.decision s.records item.2 with
  | .skip _ => .quiet
  | .conflict _ _ => .quiet
  | .write _ => if insertFails s.records item.2 then .fails else .writes

theorem length_supersedeByContradiction (env : Environment) (s : Store) (oldId newId reason now : String) :
    (s.supersedeByContradiction env oldId newId reason now).1.records.length = s.records.length := by
  rw [Store.supersedeByContradiction]
  split
  · rfl
  · split
    · rfl
    · rfl
    · extract_lets validTo retired renewed result
      split
      · rfl
      · simp [updateWhere, retired]

theorem writeRecord_spec (s : Store) (record : MemoryRecord) (superseded : Option String) :
    (insertFails s.records record = true → i.writeRecord s record superseded = (s, some .integrity)) ∧
      (insertFails s.records record = false →
        (i.writeRecord s record superseded).1.records.length = s.records.length + 1) := by
  rw [DirectImport.writeRecord.eq_def]
  have hput := records_put i.env s record
  constructor
  · intro hfails
    simp [Store.put, hfails]
  · intro hinserts
    rw [if_neg (by simp [hinserts])] at hput
    split
    · next heq => simp [heq] at hput; simp [hput]
    · next heq => simp [heq] at hput; simp [hput]
    · next heq =>
      simp only [heq] at hput
      rw [length_supersedeByContradiction, hput, List.length_append, List.length_singleton]

theorem recordKind_classified (hdry : i.dryRun = false) :
    Classified i.importRecord DirectImport.Progress.store (recordKind i) fun s t => s.records.length < t.records.length where
  quiet p item hkind := by
    rw [recordKind] at hkind
    split at hkind
    · next heq => simp [DirectImport.importRecord, heq]
    · next heq => simp [DirectImport.importRecord, heq]
    · split at hkind <;> cases hkind
  fails p item hkind := by
    rw [recordKind] at hkind
    split at hkind
    · cases hkind
    · cases hkind
    · next superseded heq =>
      split at hkind
      · next hfails =>
        obtain ⟨hstore, hnone⟩ := i.importRecord_of_write heq hdry
        have hwrite := (writeRecord_spec i p.store item.2 superseded).1 hfails
        rw [hstore, Ne, hnone, hwrite]
        simp
      · cases hkind
  writes p item hkind := by
    rw [recordKind] at hkind
    split at hkind
    · cases hkind
    · cases hkind
    · next superseded heq =>
      split at hkind
      · cases hkind
      · next hinserts =>
        rw [(i.importRecord_of_write heq hdry).1, (writeRecord_spec i p.store item.2 superseded).2 (by simpa using hinserts)]
        exact Nat.lt_succ_self _
  keeps s p item hlt := by
    apply lt_of_lt_of_le hlt
    cases hdecision : i.decision p.store.records item.2 with
    | skip target => simp [DirectImport.importRecord, hdecision]
    | conflict target reason => simp [DirectImport.importRecord, hdecision]
    | write superseded =>
      rw [(i.importRecord_of_write hdecision hdry).1]
      cases hinsert : insertFails p.store.records item.2 with
      | true => rw [(writeRecord_spec i p.store item.2 superseded).1 hinsert]
      | false =>
        rw [(writeRecord_spec i p.store item.2 superseded).2 hinsert]
        exact Nat.le_succ _

def HasStamped (now : String) (s : Store) : Prop := ∃ row ∈ s.candidates, StampedAt now row.metadata

theorem candidatePut_spec (env : Environment) (s : Store) (c : MemoryCandidate) (now : String) :
    (regresses s.candidates c = true → s.candidatePut env c now = (s, some (.terminalStatus c.candidateId))) ∧
      (regresses s.candidates c = false → storedCandidate c now ∈ (s.candidatePut env c now).1.candidates) := by
  rw [Store.candidatePut]
  constructor
  · intro hregress
    rw [if_pos hregress]
  · intro hopen
    rw [if_neg (by simp [hopen])]
    exact (lookup_some (lookup_upsertRow_self _ _)).1

theorem hasStamped_candidatePut (env : Environment) {s : Store} {c : MemoryCandidate} {now : String}
    (hstamp : StampedAt now c.metadata) (h : HasStamped now s) : HasStamped now (s.candidatePut env c now).1 := by
  obtain ⟨hrefused, hput⟩ := candidatePut_spec env s c now
  cases hregress : regresses s.candidates c with
  | true =>
    rw [hrefused hregress]
    exact h
  | false => exact ⟨_, hput hregress, hstamp⟩

theorem stampedAt_of_rewriteCandidate {item : MemoryCandidate × ℕ} {c : MemoryCandidate} (h : i.rewriteCandidate item = .ok c) :
    StampedAt i.call.now c.metadata := by
  rw [DirectImport.rewriteCandidate] at h
  split at h
  · cases h
    exact get_stamp _ _ _
  · cases h

def candidateKind (s : Store) (item : MemoryCandidate × ℕ) : Kind :=
  match i.rewriteCandidate item with
  | .error _ => .fails
  | .ok c =>
    if (s.candidateGet c.candidateId).any fun existing => candidateEqual existing c then .quiet
    else if regresses s.candidates c then .fails
    else .writes

theorem candidateKind_classified (hdry : i.dryRun = false) :
    Classified i.importCandidate Prod.fst (candidateKind i) fun _ s => HasStamped i.call.now s where
  quiet p item hkind := by
    rw [candidateKind] at hkind
    split at hkind
    · cases hkind
    · next c heq =>
      split at hkind
      · next hequal => simp [DirectImport.importCandidate, heq, hequal]
      · split at hkind <;> cases hkind
  fails p item hkind := by
    rw [candidateKind] at hkind
    split at hkind
    · next heq => simp [DirectImport.importCandidate, heq]
    · next c heq =>
      split at hkind
      · cases hkind
      · next hequal =>
        split at hkind
        · next hregress =>
          have hrefused := (candidatePut_spec i.env p.1 c i.call.now).1 hregress
          simp only [DirectImport.importCandidate, heq, if_neg hequal, hdry, hrefused]
          exact ⟨by simp [counted], rfl⟩
        · cases hkind
  writes p item hkind := by
    rw [candidateKind] at hkind
    split at hkind
    · cases hkind
    · next c heq =>
      split at hkind
      · cases hkind
      · next hequal =>
        split at hkind
        · cases hkind
        · next hopen =>
          have hput := (candidatePut_spec i.env p.1 c i.call.now).2 (by simpa using hopen)
          have hstamp := stampedAt_of_rewriteCandidate i heq
          simp only [DirectImport.importCandidate, heq, if_neg hequal, hdry, Bool.false_eq_true, if_false, store_counted]
          exact ⟨_, hput, hstamp⟩
  keeps _ p item h := by
    rw [DirectImport.importCandidate]
    split
    · exact h
    · next c heq =>
      split
      · exact h
      · split
        · exact h
        · rw [store_counted]
          exact hasStamped_candidatePut i.env (stampedAt_of_rewriteCandidate i heq) h

instance (rows : List MemoryRecord) (idMap : IdMap) (r : MemoryRelation) : Decidable (RelationPasses i rows idMap r) :=
  inferInstanceAs (Decidable (_ ∨ _ ∨ _))

instance (rows : List MemoryRecord) (idMap : IdMap) (t : MemoryTierTransition) : Decidable (TransitionPasses i rows idMap t) :=
  inferInstanceAs (Decidable (_ ∨ _))

def putRelations (idMap : IdMap) (rows : List MemoryRelation) (items : List (MemoryRelation × ℕ)) : List MemoryRelation :=
  items.foldl (fun t item =>
    match i.rewriteRelation idMap item with
    | .ok (some r) => upsertRow MemoryRelation.relationId r t
    | _ => t) rows

def putTierTransitions (idMap : IdMap) (rows : List MemoryTierTransition) (items : List (MemoryTierTransition × ℕ)) :
    List MemoryTierTransition :=
  items.foldl (fun t item =>
    match i.rewriteTierTransition idMap item with
    | .ok (some r) => upsertRow MemoryTierTransition.transitionId r t
    | _ => t) rows

def passingRelations (rows : List MemoryRecord) (idMap : IdMap) : List (MemoryRelation × ℕ) :=
  i.snapshot.relations.zipIdx.takeWhile fun item => RelationPasses i rows idMap item.1

def passingTransitions (rows : List MemoryRecord) (idMap : IdMap) : List (MemoryTierTransition × ℕ) :=
  i.snapshot.tierTransitions.zipIdx.takeWhile fun item => TransitionPasses i rows idMap item.1

theorem store_importRelation (hdry : i.dryRun = false) (idMap : IdMap) (p : Store × ℕ) (item : MemoryRelation × ℕ) :
    (i.importRelation idMap p item).1.1 = if RelationPasses i p.1.records idMap item.1 then
      { p.1 with relations := putRelations i idMap p.1.relations [item] } else p.1 := by
  have hpasses := importRelation_eq_none_iff i idMap p item
  simp only [putRelations, List.foldl_cons, List.foldl_nil]
  rw [DirectImport.importRelation.eq_def] at hpasses ⊢
  cases hrewrite : i.rewriteRelation idMap item with
  | error e =>
    simp only [hrewrite, reduceCtorEq, false_iff] at hpasses
    rw [if_neg hpasses]
  | ok row =>
    cases row with
    | none => simp
    | some r =>
      simp only [hrewrite, hdry, Bool.false_eq_true, if_false, counted_eq_none_iff] at hpasses
      simp only [hdry, Bool.false_eq_true, if_false, store_counted]
      rw [Store.putRelation] at hpasses ⊢
      split at hpasses
      · next hsource =>
        rw [if_pos hsource, if_neg (by simpa using hpasses)]
      · next hsource =>
        split at hpasses
        · next htarget => rw [if_neg hsource, if_pos htarget, if_neg (by simpa using hpasses)]
        · next htarget => rw [if_neg hsource, if_neg htarget, if_pos (by simpa using hpasses)]

theorem store_importTierTransition (hdry : i.dryRun = false) (idMap : IdMap) (p : Store × ℕ) (item : MemoryTierTransition × ℕ) :
    (i.importTierTransition idMap p item).1.1 = if TransitionPasses i p.1.records idMap item.1 then
      { p.1 with tierTransitions := putTierTransitions i idMap p.1.tierTransitions [item] } else p.1 := by
  have hpasses := importTierTransition_eq_none_iff i idMap p item
  simp only [putTierTransitions, List.foldl_cons, List.foldl_nil]
  rw [DirectImport.importTierTransition.eq_def] at hpasses ⊢
  cases hrewrite : i.rewriteTierTransition idMap item with
  | error e =>
    simp only [hrewrite, reduceCtorEq, false_iff] at hpasses
    rw [if_neg hpasses]
  | ok row =>
    cases row with
    | none => simp
    | some t =>
      simp only [hrewrite, hdry, Bool.false_eq_true, if_false, counted_eq_none_iff] at hpasses
      simp only [hdry, Bool.false_eq_true, if_false, store_counted]
      rw [Store.putTierTransition] at hpasses ⊢
      split at hpasses
      · next hrecord => rw [if_pos hrecord, if_neg (by simpa using hpasses)]
      · next hrecord => rw [if_neg hrecord, if_pos (by simpa using hpasses)]

theorem store_runUntil_importRelation (hdry : i.dryRun = false) (idMap : IdMap) (items : List (MemoryRelation × ℕ)) (p : Store × ℕ) :
    (runUntil (i.importRelation idMap) p items).1.1 = { p.1 with
      relations := putRelations i idMap p.1.relations
        (items.takeWhile fun item => RelationPasses i p.1.records idMap item.1) } := by
  induction items generalizing p with
  | nil => rfl
  | cons item items ih =>
    have hstore := store_importRelation i hdry idMap p item
    by_cases hpasses : RelationPasses i p.1.records idMap item.1
    · have htake : (item :: items).takeWhile (fun item => RelationPasses i p.1.records idMap item.1) =
          item :: items.takeWhile fun item => RelationPasses i p.1.records idMap item.1 :=
        List.takeWhile_cons_of_pos (by simpa using hpasses)
      rw [if_pos hpasses] at hstore
      rw [runUntil_cons_of_none ((importRelation_eq_none_iff i idMap p item).mpr hpasses), ih, hstore, htake]
      rfl
    · rw [if_neg hpasses] at hstore
      rw [runUntil_cons_of_ne_none (mt (importRelation_eq_none_iff i idMap p item).mp hpasses), hstore,
        List.takeWhile_cons_of_neg (by simpa using hpasses)]
      rfl

theorem store_runUntil_importTierTransition (hdry : i.dryRun = false) (idMap : IdMap) (items : List (MemoryTierTransition × ℕ))
    (p : Store × ℕ) :
    (runUntil (i.importTierTransition idMap) p items).1.1 = { p.1 with
      tierTransitions := putTierTransitions i idMap p.1.tierTransitions
        (items.takeWhile fun item => TransitionPasses i p.1.records idMap item.1) } := by
  induction items generalizing p with
  | nil => rfl
  | cons item items ih =>
    have hstore := store_importTierTransition i hdry idMap p item
    by_cases hpasses : TransitionPasses i p.1.records idMap item.1
    · have htake : (item :: items).takeWhile (fun item => TransitionPasses i p.1.records idMap item.1) =
          item :: items.takeWhile fun item => TransitionPasses i p.1.records idMap item.1 :=
        List.takeWhile_cons_of_pos (by simpa using hpasses)
      rw [if_pos hpasses] at hstore
      rw [runUntil_cons_of_none ((importTierTransition_eq_none_iff i idMap p item).mpr hpasses), ih, hstore, htake]
      rfl
    · rw [if_neg hpasses] at hstore
      rw [runUntil_cons_of_ne_none (mt (importTierTransition_eq_none_iff i idMap p item).mp hpasses), hstore,
        List.takeWhile_cons_of_neg (by simpa using hpasses)]
      rfl

/-- The sections after the records are rejected before they change a table. -/
def RestUntouched (s : Store) (idMap : IdMap) : Prop :=
  match firstLoud (candidateKind i s) i.snapshot.candidates.zipIdx with
  | some .fails => True
  | some _ => False
  | none =>
    putRelations i idMap s.relations (passingRelations i s.records idMap) = s.relations ∧
      ((¬ ∀ r ∈ i.snapshot.relations, RelationPasses i s.records idMap r) ∨
        (putTierTransitions i idMap s.tierTransitions (passingTransitions i s.records idMap) = s.tierTransitions ∧
          ¬ ∀ t ∈ i.snapshot.tierTransitions, TransitionPasses i s.records idMap t))

/-- A record that cannot be inserted comes before any that can, or no record is to be written and one of them
conflicts, or a later section is rejected so. -/
def DirectUntouched (s : Store) : Prop :=
  let idMap := prepareRecordIdMap s.records i.snapshot.records i.conflictMode i.idMode i.call
  match firstLoud (recordKind i s) (i.items idMap) with
  | some .fails => True
  | some _ => False
  | none =>
    (∃ item ∈ i.items idMap, ∃ target reason, i.decision s.records item.2 = .conflict target reason) ∨
      RestUntouched i s (resolvedIds i s.records (i.items idMap) idMap)

theorem importRest_of_untouched (hdry : i.dryRun = false) {s : Store} {idMap : IdMap} (h : RestUntouched i s idMap) :
    (i.importRest s idMap).2 = s := by
  have hclassified := candidateKind_classified i hdry
  rw [RestUntouched] at h
  rw [DirectImport.importRest]
  dsimp only
  split at h
  · next hfails =>
    obtain ⟨herror, hstore⟩ := hclassified.of_firstLoud_eq_fails (s := (s, 0)) hfails
    split
    · exact hstore
    · next hnone => exact absurd hnone herror
  · cases h
  · next hquiet =>
    obtain ⟨hnone, hstore⟩ := hclassified.of_firstLoud_eq_none (s := (s, 0)) hquiet
    obtain ⟨hrelations, hrest⟩ := h
    have hstore' : (runUntil i.importCandidate (s, 0) i.snapshot.candidates.zipIdx).1.1 = s := hstore
    have hput : (runUntil (i.importRelation idMap) (s, 0) i.snapshot.relations.zipIdx).1.1 = s := by
      rw [store_runUntil_importRelation i hdry]
      exact congrArg (fun rows => { s with relations := rows }) hrelations
    rw [hnone, hstore']
    dsimp only
    split
    · exact hput
    · next hpasses =>
      rw [relations_run_iff] at hpasses
      obtain hrefused | ⟨htransitions, hrefused⟩ := hrest
      · exact absurd hpasses hrefused
      · rw [← tierTransitions_run_iff] at hrefused
        rw [hput]
        split
        · rw [store_runUntil_importTierTransition i hdry]
          exact congrArg (fun rows => { s with tierTransitions := rows }) htransitions
        · next hnone => exact absurd hnone hrefused

theorem candidates_importRest (hdry : i.dryRun = false) (s : Store) (idMap : IdMap) :
    (i.importRest s idMap).2.candidates = (runUntil i.importCandidate (s, 0) i.snapshot.candidates.zipIdx).1.1.candidates := by
  rw [DirectImport.importRest]
  dsimp only
  split
  · rfl
  · split
    · rw [store_runUntil_importRelation i hdry]
    · split
      · rw [store_runUntil_importTierTransition i hdry, store_runUntil_importRelation i hdry]
      · rw [store_runUntil_importTierTransition i hdry, store_runUntil_importRelation i hdry]

theorem untouched_of_importRest (hdry : i.dryRun = false) {s : Store} {idMap : IdMap} (hfresh : ¬ HasStamped i.call.now s)
    (herror : ∃ e, (i.importRest s idMap).1 = .error e) (heq : (i.importRest s idMap).2 = s) : RestUntouched i s idMap := by
  have hclassified := candidateKind_classified i hdry
  rw [RestUntouched]
  split
  · trivial
  · next kind hne hloud =>
    cases kind with
    | quiet => exact absurd hloud (firstLoud_ne_quiet _ _)
    | fails => exact hne rfl
    | writes =>
      have hchanged := hclassified.of_firstLoud_eq_writes (s := (s, 0)) hloud
      have hcandidates := candidates_importRest i hdry s idMap
      rw [heq] at hcandidates
      rw [HasStamped, hcandidates] at hfresh
      exact hfresh hchanged
  · next hquiet =>
    obtain ⟨hnone, hstore⟩ := hclassified.of_firstLoud_eq_none (s := (s, 0)) hquiet
    have hstore' : (runUntil i.importCandidate (s, 0) i.snapshot.candidates.zipIdx).1.1 = s := hstore
    have hrelations := store_runUntil_importRelation i hdry idMap i.snapshot.relations.zipIdx (s, 0)
    rw [DirectImport.importRest] at herror heq
    dsimp only at herror heq
    rw [hnone, hstore'] at herror heq
    dsimp only at herror heq
    split at heq
    · next e hrefused =>
      rw [hrelations] at heq
      refine ⟨congrArg Store.relations heq, .inl ?_⟩
      rw [← relations_run_iff, hrefused]
      simp
    · next hpasses =>
      rw [hpasses] at herror
      dsimp only at herror
      have htransitions := store_runUntil_importTierTransition i hdry idMap i.snapshot.tierTransitions.zipIdx
        ((runUntil (i.importRelation idMap) (s, 0) i.snapshot.relations.zipIdx).1.1, 0)
      split at heq
      · next e hrefused =>
        rw [htransitions, hrelations] at heq
        refine ⟨congrArg Store.relations heq, .inr ⟨congrArg Store.tierTransitions heq, ?_⟩⟩
        intro hall
        have hpasses := (tierTransitions_run_iff i idMap
          (runUntil (i.importRelation idMap) (s, 0) i.snapshot.relations.zipIdx).1.1).mpr (by rw [hrelations]; exact hall)
        rw [hrefused] at hpasses
        cases hpasses
      · next hnone =>
        rw [hnone] at herror
        obtain ⟨e, herror⟩ := herror
        cases herror

theorem runUntil_importRecord_of_conflict {p : DirectImport.Progress} {items : List (MemoryRecord × MemoryRecord)}
    (hquiet : firstLoud (recordKind i p.store) items = none) (hdry : i.dryRun = false)
    (hconflict : ∃ item ∈ items, ∃ target reason, i.decision p.store.records item.2 = .conflict target reason) :
    (runUntil i.importRecord p items).1.conflicts ≠ [] := by
  have hkeeps : ∀ (q : DirectImport.Progress) (item : MemoryRecord × MemoryRecord), q.conflicts ≠ [] →
      (i.importRecord q item).1.conflicts ≠ [] := by
    intro q item hq
    rw [DirectImport.importRecord]
    split
    · exact hq
    · simp
    · split
      · exact hq
      · split <;> exact hq
  induction items generalizing p with
  | nil => simp at hconflict
  | cons item items ih =>
    have hkind : recordKind i p.store item = .quiet := by
      by_contra hloud
      simp [firstLoud, hloud] at hquiet
    obtain ⟨hnone, hstore⟩ := (recordKind_classified i hdry).quiet p item hkind
    rw [runUntil_cons_of_none hnone]
    obtain ⟨other, hother, target, reason, hdecision⟩ := hconflict
    obtain rfl | hother := List.mem_cons.mp hother
    · apply runUntil_invariant (I := fun q : DirectImport.Progress => q.conflicts ≠ []) hkeeps
      simp [DirectImport.importRecord, hdecision]
    · apply ih
      · rw [hstore]
        simpa [firstLoud, hkind] using hquiet
      · exact ⟨other, hother, target, reason, by rw [hstore]; exact hdecision⟩

theorem skips_of_no_conflict {s : Store} {items : List (MemoryRecord × MemoryRecord)}
    (hquiet : firstLoud (recordKind i s) items = none)
    (hconflict : ¬ ∃ item ∈ items, ∃ target reason, i.decision s.records item.2 = .conflict target reason) :
    ∀ item ∈ items, ∃ target, i.decision s.records item.2 = .skip target := by
  intro item hitem
  have hkind : recordKind i s item = .quiet := by
    simpa using List.find?_eq_none.mp hquiet _ (List.mem_map.mpr ⟨item, hitem, rfl⟩)
  rw [recordKind] at hkind
  split at hkind
  · next target heq => exact ⟨target, heq⟩
  · next target reason heq => exact absurd ⟨item, hitem, target, reason, heq⟩ hconflict
  · split at hkind <;> cases hkind

def preparedIds (s : Store) : IdMap := prepareRecordIdMap s.records i.snapshot.records i.conflictMode i.idMode i.call

theorem importRecords_of_fails (hdry : i.dryRun = false) {s : Store}
    (h : firstLoud (recordKind i s) (i.items (preparedIds i s)) = some .fails) :
    (i.importRecords s).2 ≠ none ∧ (i.importRecords s).1.store = s := by
  have hrun := (recordKind_classified i hdry).of_firstLoud_eq_fails (s := { store := s, idMap := preparedIds i s }) h
  exact hrun

theorem importRecords_of_writes (hdry : i.dryRun = false) {s : Store}
    (h : firstLoud (recordKind i s) (i.items (preparedIds i s)) = some .writes) :
    s.records.length < (i.importRecords s).1.store.records.length :=
  (recordKind_classified i hdry).of_firstLoud_eq_writes (s := { store := s, idMap := preparedIds i s }) h

theorem importRecords_of_conflict (hdry : i.dryRun = false) {s : Store}
    (h : firstLoud (recordKind i s) (i.items (preparedIds i s)) = none)
    (hconflict : ∃ item ∈ i.items (preparedIds i s), ∃ target reason, i.decision s.records item.2 = .conflict target reason) :
    (i.importRecords s).2 = none ∧ (i.importRecords s).1.store = s ∧ (i.importRecords s).1.conflicts ≠ [] := by
  obtain ⟨hnone, hstore⟩ :=
    (recordKind_classified i hdry).of_firstLoud_eq_none (s := { store := s, idMap := preparedIds i s }) h
  have hreported := runUntil_importRecord_of_conflict i (p := { store := s, idMap := preparedIds i s }) h hdry hconflict
  exact ⟨hnone, hstore, hreported⟩

theorem importRecords_of_skips {s : Store}
    (h : firstLoud (recordKind i s) (i.items (preparedIds i s)) = none)
    (hconflict : ¬ ∃ item ∈ i.items (preparedIds i s), ∃ target reason, i.decision s.records item.2 = .conflict target reason) :
    i.importRecords s =
      (skipped i { store := s, idMap := preparedIds i s } (i.items (preparedIds i s)), none) :=
  runUntil_importRecord_of_skips i (p := { store := s, idMap := preparedIds i s }) (skips_of_no_conflict i h hconflict)

theorem importDirectMode_cases (options : MemoryBundleImportOptions) (s : Store) :
    (((i.importRecords s).2 ≠ none ∨ (i.importRecords s).1.conflicts ≠ []) ∧
      (importDirectMode i options s).2 = (i.importRecords s).1.store) ∨
    ((i.importRecords s).2 = none ∧ (i.importRecords s).1.conflicts = [] ∧
      (importDirectMode i options s).2 = (i.importRest (i.importRecords s).1.store (i.importRecords s).1.idMap).2 ∧
      ((∃ e, (importDirectMode i options s).1 = .error e ∧
          (i.importRest (i.importRecords s).1.store (i.importRecords s).1.idMap).1 = .error e) ∨
        ∃ result, (importDirectMode i options s).1 = .ok result ∧ result.applied = !i.dryRun)) := by
  rw [importDirectMode]
  generalize i.importRecords s = records
  obtain ⟨p, error⟩ := records
  cases error with
  | some e => exact .inl ⟨.inl (by simp), rfl⟩
  | none =>
    dsimp only
    by_cases hconflicts : p.conflicts = []
    · right
      rw [if_neg (not_not.mpr hconflicts)]
      refine ⟨rfl, hconflicts, ?_⟩
      generalize i.importRest p.store p.idMap = rest
      obtain ⟨outcome, after⟩ := rest
      cases outcome with
      | error e => exact ⟨rfl, .inl ⟨e, rfl, rfl⟩⟩
      | ok counts => exact ⟨rfl, .inr ⟨_, rfl, rfl⟩⟩
    · left
      rw [if_pos hconflicts]
      exact ⟨.inr hconflicts, rfl⟩

theorem importDirectMode_of_untouched (hdry : i.dryRun = false) (options : MemoryBundleImportOptions) {s : Store}
    (h : DirectUntouched i s) : (importDirectMode i options s).2 = s := by
  rw [DirectUntouched] at h
  split at h
  · next hfails =>
    obtain ⟨herror, hstore⟩ := importRecords_of_fails i hdry hfails
    obtain ⟨-, hafter⟩ | ⟨hnone, -⟩ := importDirectMode_cases i options s
    · rw [hafter, hstore]
    · exact absurd hnone herror
  · cases h
  · next hquiet =>
    by_cases hconflict : ∃ item ∈ i.items (preparedIds i s), ∃ target reason, i.decision s.records item.2 = .conflict target reason
    · obtain ⟨-, hstore, hreported⟩ := importRecords_of_conflict i hdry hquiet hconflict
      obtain ⟨-, hafter⟩ | ⟨-, hconflicts, -⟩ := importDirectMode_cases i options s
      · rw [hafter, hstore]
      · exact absurd hconflicts hreported
    · have hskips := importRecords_of_skips i hquiet hconflict
      have hrest := importRest_of_untouched i hdry (h.resolve_left hconflict)
      obtain ⟨hstopped, -⟩ | ⟨-, -, hafter, -⟩ := importDirectMode_cases i options s
      · rw [hskips] at hstopped
        simp [skipped] at hstopped
      · rw [hafter, hskips]
        exact hrest

theorem untouched_of_importDirectMode (hdry : i.dryRun = false) (options : MemoryBundleImportOptions) {s : Store}
    (hfresh : ¬ HasStamped i.call.now s)
    (hrejected : (∃ e, (importDirectMode i options s).1 = .error e) ∨
      ∃ result, (importDirectMode i options s).1 = .ok result ∧ result.applied = false)
    (heq : (importDirectMode i options s).2 = s) : DirectUntouched i s := by
  rw [DirectUntouched]
  split
  · trivial
  · next kind hne hloud =>
    cases kind with
    | quiet => exact absurd hloud (firstLoud_ne_quiet _ _)
    | fails => exact hne rfl
    | writes =>
      have hgrown := importRecords_of_writes i hdry hloud
      have hrecords : (importDirectMode i options s).2.records = (i.importRecords s).1.store.records := by
        obtain ⟨-, hafter⟩ | ⟨-, -, hafter, -⟩ := importDirectMode_cases i options s
        · rw [hafter]
        · rw [hafter, (importRest_spec i _ _).1]
      rw [← hrecords, heq] at hgrown
      exact absurd hgrown (lt_irrefl _)
  · next hquiet =>
    by_cases hconflict : ∃ item ∈ i.items (preparedIds i s), ∃ target reason, i.decision s.records item.2 = .conflict target reason
    · exact .inl hconflict
    · right
      have hskips := importRecords_of_skips i hquiet hconflict
      obtain ⟨hstopped, -⟩ | ⟨-, -, hafter, houtcome⟩ := importDirectMode_cases i options s
      · rw [hskips] at hstopped
        simp [skipped] at hstopped
      · rw [hskips] at hafter houtcome
        obtain ⟨e, -, herror⟩ | ⟨result, hok, happlied⟩ := houtcome
        · exact untouched_of_importRest i hdry hfresh ⟨e, herror⟩ (hafter.symm.trans heq)
        · obtain ⟨e, herror⟩ | ⟨other, hok', hfalse⟩ := hrejected
          · rw [herror] at hok
            cases hok
          · rw [hok'] at hok
            cases hok
            rw [happlied, hdry] at hfalse
            cases hfalse

theorem store_importRecord_of_dryRun (hdry : i.dryRun = true) (p : DirectImport.Progress) (item : MemoryRecord × MemoryRecord) :
    (i.importRecord p item).1.store = p.store := by
  rw [DirectImport.importRecord]
  split
  · rfl
  · rfl
  · rw [if_pos hdry]
    rfl

theorem store_importCandidate_of_dryRun (hdry : i.dryRun = true) (p : Store × ℕ) (item : MemoryCandidate × ℕ) :
    (i.importCandidate p item).1.1 = p.1 := by
  rw [DirectImport.importCandidate]
  split
  · rfl
  · split
    · rfl
    · rfl

theorem store_importRelation_of_dryRun (hdry : i.dryRun = true) (idMap : IdMap) (p : Store × ℕ) (item : MemoryRelation × ℕ) :
    (i.importRelation idMap p item).1.1 = p.1 := by
  rw [DirectImport.importRelation]
  split
  · rfl
  · rfl
  · rw [if_pos hdry]

theorem store_importTierTransition_of_dryRun (hdry : i.dryRun = true) (idMap : IdMap) (p : Store × ℕ)
    (item : MemoryTierTransition × ℕ) : (i.importTierTransition idMap p item).1.1 = p.1 := by
  rw [DirectImport.importTierTransition]
  split
  · rfl
  · rfl
  · rw [if_pos hdry]

theorem importRest_of_dryRun (hdry : i.dryRun = true) (s : Store) (idMap : IdMap) : (i.importRest s idMap).2 = s := by
  have hcandidates : (runUntil i.importCandidate (s, 0) i.snapshot.candidates.zipIdx).1.1 = s :=
    view_runUntil Prod.fst (store_importCandidate_of_dryRun i hdry) (s, 0) _
  have hrelations : (runUntil (i.importRelation idMap) (s, 0) i.snapshot.relations.zipIdx).1.1 = s :=
    view_runUntil Prod.fst (store_importRelation_of_dryRun i hdry idMap) (s, 0) _
  have htransitions : (runUntil (i.importTierTransition idMap) (s, 0) i.snapshot.tierTransitions.zipIdx).1.1 = s :=
    view_runUntil Prod.fst (store_importTierTransition_of_dryRun i hdry idMap) (s, 0) _
  rw [DirectImport.importRest]
  dsimp only
  rw [hcandidates, hrelations]
  split
  · rfl
  · split
    · rfl
    · split
      · exact htransitions
      · exact htransitions

theorem importDirectMode_of_dryRun (hdry : i.dryRun = true) (options : MemoryBundleImportOptions) (s : Store) :
    (importDirectMode i options s).2 = s := by
  have hrecords : (i.importRecords s).1.store = s :=
    view_runUntil DirectImport.Progress.store (store_importRecord_of_dryRun i hdry) { store := s, idMap := preparedIds i s } _
  obtain ⟨-, hafter⟩ | ⟨-, -, hafter, -⟩ := importDirectMode_cases i options s
  · rw [hafter, hrecords]
  · rw [hafter, importRest_of_dryRun i hdry, hrecords]

end Direct

section Candidates

variable (env : Environment) (snapshot : MemoryBundleSnapshot) (options : MemoryBundleImportOptions) (call : Call)

theorem stampedAt_stagedCandidate (r : MemoryRecord) (n : ℕ) :
    StampedAt call.now (stagedCandidate snapshot call
      (rewrittenRecord env snapshot options.scopeRewrites call.now [] r, n)).metadata := by
  have hstamp := get_stamp r.metadata snapshot call.now
  rw [Metadata.get] at hstamp
  simp only [StampedAt, stagedCandidate, Metadata.get, Metadata.set, rewrittenRecord]
  rw [Dict.get_set_of_ne (by decide), Dict.get_set_of_ne (by decide)]
  exact hstamp

theorem staged_eq_map : staged env snapshot options.scopeRewrites call = snapshot.records.zipIdx.map fun item =>
    stagedCandidate snapshot call (rewrittenRecord env snapshot options.scopeRewrites call.now [] item.1, item.2) := by
  rw [staged, List.zipIdx_map, List.map_map]
  rfl

theorem hasStamped_stage {p : Store × ℕ} (h : HasStamped call.now p.1) (items : List (MemoryRecord × ℕ)) :
    HasStamped call.now (runUntil (stageCandidate env call false) p (items.map fun item =>
      stagedCandidate snapshot call (rewrittenRecord env snapshot options.scopeRewrites call.now [] item.1, item.2))).1.1 := by
  rw [runUntil_map]
  apply runUntil_invariant (I := fun q : Store × ℕ => HasStamped call.now q.1) _ h
  intro q item hq
  rw [stageCandidate, if_neg Bool.false_ne_true, store_counted]
  exact hasStamped_candidatePut env (stampedAt_stagedCandidate env snapshot options call item.1 item.2) hq

/-- The first candidate would open one that was closed. -/
def CandidateUntouched (s : Store) : Prop :=
  ∃ c, (staged env snapshot options.scopeRewrites call).head? = some c ∧ regresses s.candidates c = true

theorem store_importCandidateMode (s : Store) : (importCandidateMode env snapshot options call s).2 =
    (runUntil (stageCandidate env call options.dryRun) (s, 0) (staged env snapshot options.scopeRewrites call)).1.1 := by
  rw [importCandidateMode]
  split
  · next heq => rw [heq]
  · next heq => rw [heq]

theorem importCandidateMode_of_dryRun (hdry : options.dryRun = true) (s : Store) :
    (importCandidateMode env snapshot options call s).2 = s := by
  rw [store_importCandidateMode]
  apply view_runUntil Prod.fst
  intro p c
  rw [stageCandidate, if_pos hdry]

theorem importCandidateMode_of_untouched (hdry : options.dryRun = false) {s : Store}
    (h : CandidateUntouched env snapshot options call s) : (importCandidateMode env snapshot options call s).2 = s := by
  obtain ⟨c, hhead, hregress⟩ := h
  obtain ⟨rest, hstaged⟩ := List.head?_eq_some_iff.mp hhead
  have hrefused := (candidatePut_spec env s c call.now).1 hregress
  rw [store_importCandidateMode, hstaged, hdry, runUntil_cons_of_ne_none]
  · rw [stageCandidate, if_neg Bool.false_ne_true, store_counted, hrefused]
  · rw [stageCandidate, if_neg Bool.false_ne_true, Ne, counted_eq_none_iff, hrefused]
    simp

theorem untouched_of_importCandidateMode (hdry : options.dryRun = false) {s : Store} (hfresh : ¬ HasStamped call.now s)
    (hrejected : (∃ e, (importCandidateMode env snapshot options call s).1 = .error e) ∨
      ∃ result, (importCandidateMode env snapshot options call s).1 = .ok result ∧ result.applied = false)
    (heq : (importCandidateMode env snapshot options call s).2 = s) : CandidateUntouched env snapshot options call s := by
  rw [store_importCandidateMode, staged_eq_map, hdry] at heq
  rw [CandidateUntouched, staged_eq_map]
  rw [importCandidateMode, staged_eq_map, hdry] at hrejected
  cases hitems : snapshot.records.zipIdx with
  | nil =>
    rw [hitems] at hrejected
    simp at hrejected
  | cons item items =>
    refine ⟨_, rfl, ?_⟩
    by_contra hopen
    rw [hitems, List.map_cons] at heq
    -- the first candidate is put, and its stamp is there at the end
    have hput := (candidatePut_spec env s _ call.now).2 (Bool.eq_false_iff.mpr hopen)
    have hfirst : HasStamped call.now (stageCandidate env call false (s, 0) (stagedCandidate snapshot call
        (rewrittenRecord env snapshot options.scopeRewrites call.now [] item.1, item.2))).1.1 := by
      rw [stageCandidate, if_neg Bool.false_ne_true, store_counted]
      exact ⟨_, hput, stampedAt_stagedCandidate env snapshot options call item.1 item.2⟩
    apply hfresh
    rw [← heq]
    by_cases hnone : (stageCandidate env call false (s, 0) (stagedCandidate snapshot call
        (rewrittenRecord env snapshot options.scopeRewrites call.now [] item.1, item.2))).2 = none
    · rw [runUntil_cons_of_none hnone]
      exact hasStamped_stage env snapshot options call hfirst items
    · rw [runUntil_cons_of_ne_none hnone]
      exact hfirst

/-- The import raises, or reports that it was not applied although it was to be. -/
def Rejected (dryRun : Bool) (outcome : Except ImportError MemoryBundleImportResult × Store) : Prop :=
  (∃ e, outcome.1 = .error e) ∨ (dryRun = false ∧ ∃ result, outcome.1 = .ok result ∧ result.applied = false)

theorem rejected_of_not_applied {outcome : Except ImportError MemoryBundleImportResult × Store}
    (h : (outcome.1.toOption.any fun result => !result.applied) = true) : Rejected false outcome := by
  obtain ⟨result, hok, happlied⟩ := (Option.any_eq_true _ _).mp h
  refine .inr ⟨rfl, result, ?_, by simpa using happlied⟩
  cases hresult : outcome.1 with
  | error e => simp [hresult, Except.toOption] at hok
  | ok other => simpa [hresult, Except.toOption] using hok

/-- The import is to write nothing, or is rejected before it changes a table. -/
def Untouched (s : Store) : Prop :=
  options.dryRun = true ∨
    match TrustMode.ofText options.trustMode, ConflictMode.ofText options.conflictMode, IdMode.ofText options.idMode with
    | some trustMode, some conflictMode, some idMode =>
      scopesAccepted env options.scopeRewrites snapshot.records = false ∨
        match trustMode with
        | .candidate => CandidateUntouched env snapshot options call s
        | .direct => DirectUntouched
            { env, call, snapshot, scopeRewrites := options.scopeRewrites, conflictMode, idMode, dryRun := options.dryRun } s
    | _, _, _ => True

theorem importSnapshot_of_dryRun (hdry : options.dryRun = true) (s : Store) :
    (importSnapshot env snapshot options call s).2 = s := by
  rw [importSnapshot]
  split
  · rfl
  · rfl
  · rfl
  · split
    · split
      · exact importCandidateMode_of_dryRun env snapshot options call hdry s
      · exact importDirectMode_of_dryRun _ hdry options s
    · rfl

theorem importSnapshot_of_untouched {s : Store} (h : Untouched env snapshot options call s) :
    (importSnapshot env snapshot options call s).2 = s := by
  obtain hdry | h := h
  · exact importSnapshot_of_dryRun env snapshot options call hdry s
  · cases hdry : options.dryRun with
    | true => exact importSnapshot_of_dryRun env snapshot options call hdry s
    | false =>
      rw [importSnapshot]
      split
      · rfl
      · rfl
      · rfl
      · next trustMode conflictMode idMode htrust hconflict hid =>
        rw [htrust, hconflict, hid] at h
        split
        · next hscopes =>
          have hmode := h.resolve_left (by simp [hscopes])
          cases trustMode with
          | candidate => exact importCandidateMode_of_untouched env snapshot options call hdry hmode
          | direct => exact importDirectMode_of_untouched _ hdry options hmode
        · rfl

theorem untouched_of_importSnapshot {s : Store} (hfresh : ¬ HasStamped call.now s)
    (hrejected : Rejected options.dryRun (importSnapshot env snapshot options call s))
    (heq : (importSnapshot env snapshot options call s).2 = s) : Untouched env snapshot options call s := by
  cases hdry : options.dryRun with
  | true => exact .inl hdry
  | false =>
    right
    split
    · next trustMode conflictMode idMode htrust hconflict hid =>
      cases hscopes : scopesAccepted env options.scopeRewrites snapshot.records with
      | false => exact .inl rfl
      | true =>
        right
        rw [importSnapshot, htrust, hconflict, hid] at hrejected heq
        simp only [hscopes, if_true, Rejected, hdry, true_and] at hrejected heq
        cases trustMode with
        | candidate => exact untouched_of_importCandidateMode env snapshot options call hdry hfresh hrejected heq
        | direct =>
          rw [hdry]
          exact untouched_of_importDirectMode _ rfl options hfresh hrejected heq
    · trivial

/-- A rejected import leaves the store exactly when it was rejected before its first write, unless a candidate already
carries the time of the import. -/
theorem rejected_import_unchanged_iff (s : Store) (h : Rejected options.dryRun (importSnapshot env snapshot options call s)) :
    (Untouched env snapshot options call s → (importSnapshot env snapshot options call s).2 = s) ∧
      (¬ HasStamped call.now s →
        ((importSnapshot env snapshot options call s).2 = s ↔ Untouched env snapshot options call s)) := by
  refine ⟨importSnapshot_of_untouched env snapshot options call, fun hfresh => ⟨?_, ?_⟩⟩
  · exact untouched_of_importSnapshot env snapshot options call hfresh h
  · exact importSnapshot_of_untouched env snapshot options call

end Candidates

def plainNote (id content : String) : MemoryRecord :=
  { id, scope := "agent:a", recordType := "fact", content := .str content, createdAt := "t0", updatedAt := "t0" }

def clashBundle : MemoryBundleSnapshot := { bundleId := "b", records := [plainNote "m" "changed"] }

/-- A bundle whose only record conflicts is rejected with the store as it was. -/
theorem rejected_clash_unchanged :
    let s : Store := { records := [plainNote "m" "note"] }
    let options := directOptions .error [] false
    Rejected options.dryRun (importSnapshot plainEnvironment clashBundle options (noteCall "t1") s) ∧
      ¬ HasStamped "t1" s ∧ Untouched plainEnvironment clashBundle options (noteCall "t1") s ∧
      (importSnapshot plainEnvironment clashBundle options (noteCall "t1") s).2 = s := by
  intro s options
  have hrejected : Rejected options.dryRun (importSnapshot plainEnvironment clashBundle options (noteCall "t1") s) :=
    rejected_of_not_applied (by decide +kernel)
  have hfresh : ¬ HasStamped "t1" s := by simp [HasStamped, s]
  have hafter : (importSnapshot plainEnvironment clashBundle options (noteCall "t1") s).2 = s := by decide +kernel
  have hiff := (rejected_import_unchanged_iff plainEnvironment clashBundle options (noteCall "t1") s hrejected).2 hfresh
  exact ⟨hrejected, hfresh, hiff.mp hafter, hafter⟩

/-- With a new record before it, the conflict is reported after the new record was written. -/
theorem rejected_import_writes :
    let s : Store := { records := [plainNote "m" "note"] }
    let bundle : MemoryBundleSnapshot := { bundleId := "b", records := [plainNote "n" "new", plainNote "m" "changed"] }
    let options := directOptions .error [] false
    let outcome := importSnapshot plainEnvironment bundle options (noteCall "t1") s
    Rejected options.dryRun outcome ∧ (outcome.2.records.map MemoryRecord.id) = ["m", "n"] ∧ outcome.2 ≠ s := by
  intro s bundle options outcome
  refine ⟨rejected_of_not_applied (by decide +kernel), by decide +kernel, ?_⟩
  intro hsame
  have hlength := congrArg (fun t : Store => t.records.length) hsame
  revert hlength
  decide +kernel

end OpenMinion.RejectedImports
