import OpenMinion.AbortableLoops
import OpenMinion.SeedBundles

/-!
# Invariants of the compression bundle

After any calls of `update`, `checkpoint` and `maybe_checkpoint` and any restarts every tier fits its cap, the texts
that the checkpoint identifies are different, and an open loop that was closed last is gone.
-/
namespace OpenMinion.CompressionInvariants
open AbortableLoops CompactionRebuild CompressionTiers JsonValues KeyedTables PythonText SeedBundles TransitionRuns

def ofTier (tierType : TierType) (tiers : List TierEntry) : List TierEntry := tiers.filter fun entry => entry.tierType = tierType

def tokens (entries : List TierEntry) : ℕ := (entries.map TierEntry.tokenCount).sum

def strippedText (entry : TierEntry) : String := strip entry.text

theorem trimOldest_sublist (budget used : ℕ) (entries : List TierEntry) : (trimOldest budget used entries).Sublist entries := by
  induction entries generalizing used with
  | nil => exact List.Sublist.refl _
  | cons entry rest ih =>
    rw [trimOldest]
    split
    · exact List.nil_sublist _
    · exact (ih _).cons_cons entry

theorem tokens_trimOldest {budget used : ℕ} (hused : used ≤ budget) (entries : List TierEntry) :
    used + tokens (trimOldest budget used entries) ≤ budget := by
  induction entries generalizing used with
  | nil => simpa [trimOldest, tokens] using hused
  | cons entry rest ih =>
    rw [trimOldest]
    split
    · simpa [tokens] using hused
    · next hfits =>
      rw [tokens, List.map_cons, List.sum_cons, ← Nat.add_assoc]
      exact ih (not_lt.mp hfits)

theorem trimNewest_sublist (budget used : ℕ) (entries : List TierEntry) : (trimNewest budget used entries).Sublist entries := by
  induction entries generalizing used with
  | nil => exact List.Sublist.refl _
  | cons entry rest ih =>
    rw [trimNewest]
    split
    · exact (ih _).cons entry
    · exact (ih _).cons_cons entry

theorem tokens_trimNewest {budget used : ℕ} (hused : used ≤ budget) (entries : List TierEntry) :
    used + tokens (trimNewest budget used entries) ≤ budget := by
  induction entries generalizing used with
  | nil => simpa [trimNewest, tokens] using hused
  | cons entry rest ih =>
    rw [trimNewest]
    split
    · exact ih hused
    · next hfits =>
      rw [tokens, List.map_cons, List.sum_cons, ← Nat.add_assoc]
      exact ih (not_lt.mp hfits)

def lastOf (key : TierEntry → String) (k : String) (entries : List TierEntry) : Option TierEntry :=
  lookup key k entries.reverse

variable {key : TierEntry → String}

@[simp] theorem lastOf_nil (k : String) : lastOf key k [] = none := rfl

theorem lastOf_append (k : String) (entries more : List TierEntry) :
    lastOf key k (entries ++ more) = (lastOf key k more).or (lastOf key k entries) := by
  rw [lastOf, lookup, List.reverse_append, List.find?_append]
  rfl

theorem lastOf_snoc (k : String) (entries : List TierEntry) (entry : TierEntry) :
    lastOf key k (entries ++ [entry]) = if key entry = k then some entry else lastOf key k entries := by
  have hlast : lastOf key k [entry] = if key entry = k then some entry else none := by
    by_cases hkey : key entry = k
    · simp [lastOf, lookup, hkey]
    · simp [lastOf, lookup, hkey]
  rw [lastOf_append, hlast]
  split
  · rfl
  · rfl

theorem lastOf_some {k : String} {entries : List TierEntry} {entry : TierEntry} (h : lastOf key k entries = some entry) :
    entry ∈ entries ∧ key entry = k := by
  obtain ⟨hmem, hkey⟩ := lookup_some h
  exact ⟨List.mem_reverse.mp hmem, hkey⟩

theorem latestByKey_snoc (entries : List TierEntry) (entry : TierEntry) :
    latestByKey key (entries ++ [entry]) = upsertRow key entry (latestByKey key entries) := by
  rw [latestByKey, List.foldl_append]
  rfl

theorem uniqueKey_latestByKey (entries : List TierEntry) : UniqueKey key (latestByKey key entries) := by
  induction entries using List.reverseRecOn with
  | nil => exact .nil
  | append_singleton entries entry ih =>
    rw [latestByKey_snoc]
    exact ih.upsertRow entry

theorem latestByKey_subset (entries : List TierEntry) : latestByKey key entries ⊆ entries := by
  induction entries using List.reverseRecOn with
  | nil => exact List.nil_subset _
  | append_singleton entries entry ih =>
    rw [latestByKey_snoc]
    intro e he
    rcases mem_upsertRow he with rfl | he
    · exact List.mem_append_right _ (List.mem_singleton_self e)
    · exact List.mem_append_left _ (ih he)

theorem openByKey_snoc (entries : List TierEntry) (entry : TierEntry) :
    openByKey (entries ++ [entry]) =
      if isClosed entry then deleteWhere (fun e => strippedText e = strippedText entry) (openByKey entries)
      else upsertRow strippedText entry (openByKey entries) := by
  rw [openByKey, List.foldl_append]
  rfl

theorem uniqueKey_openByKey (entries : List TierEntry) : UniqueKey strippedText (openByKey entries) := by
  induction entries using List.reverseRecOn with
  | nil => exact .nil
  | append_singleton entries entry ih =>
    rw [openByKey_snoc]
    split
    · exact ih.deleteWhere
    · exact ih.upsertRow entry

theorem lastOf_of_mem_openByKey {entries : List TierEntry} {e : TierEntry} (he : e ∈ openByKey entries) :
    lastOf strippedText (strippedText e) entries = some e ∧ isClosed e = false := by
  induction entries using List.reverseRecOn with
  | nil => cases he
  | append_singleton entries entry ih =>
    have hunique := uniqueKey_openByKey (entries ++ [entry])
    rw [lastOf_snoc]
    rw [openByKey_snoc] at he hunique
    split at he
    · rw [mem_deleteWhere] at he
      rw [if_neg fun hsame => of_decide_eq_false he.2 hsame.symm]
      exact ih he.1
    · next hopen =>
      rw [if_neg hopen] at hunique
      by_cases hsame : strippedText entry = strippedText e
      · have hfound := @lookup_upsertRow_self _ _ strippedText _ entry (openByKey entries)
        rw [hsame, hunique.lookup_eq_some_iff.mpr ⟨he, rfl⟩] at hfound
        cases hfound
        exact ⟨if_pos rfl, Bool.eq_false_iff.mpr hopen⟩
      · rw [if_neg hsame]
        rcases mem_upsertRow he with rfl | he
        · exact absurd rfl hsame
        · exact ih he

variable (rt : Runtime) (budgets : SeedBundleBudgets)

theorem abstractTier_subset {tierType : TierType} (htier : tierType ≠ .summary) (entries : List TierEntry) (budget : ℕ) :
    abstractTier rt tierType entries budget ⊆ entries := by
  cases tierType with
  | summary => exact absurd rfl htier
  | decisions => exact List.Subset.trans (trimOldest_sublist budget 0 _).subset (latestByKey_subset entries)
  | constraints => exact List.Subset.trans (trimOldest_sublist budget 0 _).subset (latestByKey_subset entries)
  | entities => exact List.Subset.trans (trimOldest_sublist budget 0 _).subset (latestByKey_subset entries)
  | openLoops =>
    intro e he
    have hkept := (trimOldest_sublist budget 0 (openByKey entries)).subset he
    exact (lastOf_some (lastOf_of_mem_openByKey hkept).1).1
  | toolDigests =>
    intro e he
    rw [abstractTier, List.mem_reverse] at he
    exact List.mem_reverse.mp ((trimNewest_sublist budget 0 entries.reverse).subset he)
  | failures => exact List.Subset.refl entries

theorem abstractTier_tierType {tierType : TierType} {entries : List TierEntry} (h : ∀ e ∈ entries, e.tierType = tierType)
    (budget : ℕ) : ∀ e ∈ abstractTier rt tierType entries budget, e.tierType = tierType := by
  intro e he
  by_cases htier : tierType = .summary
  · subst htier
    rw [abstractTier, abstractSummary, List.mem_singleton] at he
    rw [he]
  · exact h e (abstractTier_subset rt htier entries budget he)

theorem tokens_abstractTier {tierType : TierType} (htier : tierType ≠ .failures) (entries : List TierEntry) (budget : ℕ) :
    tokens (abstractTier rt tierType entries budget) ≤ budget := by
  have holdest := fun kept => tokens_trimOldest (Nat.zero_le budget) kept
  simp only [Nat.zero_add] at holdest
  cases tierType with
  | summary =>
    simp only [abstractTier, abstractSummary, tokens, List.map_cons, List.map_nil, List.sum_cons, List.sum_nil, Nat.add_zero]
    exact min_le_right _ _
  | decisions => exact holdest _
  | constraints => exact holdest _
  | entities => exact holdest _
  | openLoops => exact holdest _
  | toolDigests =>
    have hnewest := tokens_trimNewest (Nat.zero_le budget) entries.reverse
    rw [Nat.zero_add, tokens] at hnewest
    rw [abstractTier, tokens, List.map_reverse, List.sum_reverse]
    exact hnewest
  | failures => exact absurd rfl htier

def Identified (tierType : TierType) : Prop := tierType = .decisions ∨ tierType = .constraints ∨ tierType = .openLoops

theorem nodup_abstractTier {tierType : TierType} (htier : Identified tierType) (entries : List TierEntry) (budget : ℕ) :
    ((abstractTier rt tierType entries budget).map strippedText).Nodup := by
  obtain rfl | rfl | rfl := htier
  · exact ((trimOldest_sublist budget 0 _).map strippedText).nodup (uniqueKey_latestByKey entries)
  · exact ((trimOldest_sublist budget 0 _).map strippedText).nodup (uniqueKey_latestByKey entries)
  · exact ((trimOldest_sublist budget 0 _).map strippedText).nodup (uniqueKey_openByKey entries)

theorem mem_ofTier {tierType : TierType} {tiers : List TierEntry} {e : TierEntry} :
    e ∈ ofTier tierType tiers ↔ e ∈ tiers ∧ e.tierType = tierType := by
  rw [ofTier, List.mem_filter, decide_eq_true_eq]

theorem ofTier_append (tierType : TierType) (tiers more : List TierEntry) :
    ofTier tierType (tiers ++ more) = ofTier tierType tiers ++ ofTier tierType more := List.filter_append ..

def mergedPart (current new : List TierEntry) (tierType : TierType) : List TierEntry :=
  if ofTier tierType (current ++ new) = [] then []
  else abstractTier rt tierType (ofTier tierType (current ++ new)) (budgets.capForTier tierType)

theorem mergeTiers_eq (current new : List TierEntry) :
    mergeTiers rt budgets current new = registeredTiers.flatMap (mergedPart rt budgets current new) ++
      current.filter fun entry => !registeredTiers.contains entry.tierType := rfl

theorem mergedPart_tierType (current new : List TierEntry) (tierType : TierType) :
    ∀ e ∈ mergedPart rt budgets current new tierType, e.tierType = tierType := by
  intro e he
  rw [mergedPart] at he
  split at he
  · cases he
  · exact abstractTier_tierType rt (fun e he => (mem_ofTier.mp he).2) _ e he

theorem ofTier_mergedPart (current new : List TierEntry) (tierType other : TierType) :
    ofTier tierType (mergedPart rt budgets current new other) =
      if other = tierType then mergedPart rt budgets current new tierType else [] := by
  have htier := mergedPart_tierType rt budgets current new other
  split
  · next heq =>
    subst heq
    exact List.filter_eq_self.mpr fun e he => decide_eq_true (htier e he)
  · next hne =>
    refine List.filter_eq_nil_iff.mpr fun e he => ?_
    rw [decide_eq_true_eq, htier e he]
    exact hne

theorem filter_unregistered {current : List TierEntry} (hcurrent : ∀ e ∈ current, e.tierType ≠ .failures) :
    current.filter (fun entry => !registeredTiers.contains entry.tierType) = [] := by
  refine List.filter_eq_nil_iff.mpr fun e he => ?_
  have hregistered : ∀ tierType : TierType, tierType ≠ .failures → (!registeredTiers.contains tierType) ≠ true := by
    intro tierType
    cases tierType <;> decide
  exact hregistered e.tierType (hcurrent e he)

theorem ofTier_mergeTiers {current : List TierEntry} (hcurrent : ∀ e ∈ current, e.tierType ≠ .failures) (new : List TierEntry)
    (tierType : TierType) :
    ofTier tierType (mergeTiers rt budgets current new) =
      if tierType = .failures then [] else mergedPart rt budgets current new tierType := by
  rw [mergeTiers_eq, filter_unregistered hcurrent, List.append_nil, ofTier, List.filter_flatMap]
  have hparts : (fun other => (mergedPart rt budgets current new other).filter fun entry => entry.tierType = tierType) =
      fun other => if other = tierType then mergedPart rt budgets current new tierType else [] := by
    funext other
    exact ofTier_mergedPart rt budgets current new tierType other
  rw [hparts]
  cases tierType <;> simp [registeredTiers]

variable {rt budgets}

/-- What holds of the tiers of a bundle, after the loops that were extracted. -/
structure Sound (budgets : SeedBundleBudgets) (extracted tiers : List TierEntry) : Prop where
  registered : ∀ e ∈ tiers, e.tierType ≠ .failures
  caps : ∀ tierType, tokens (ofTier tierType tiers) ≤ budgets.capForTier tierType
  distinct : ∀ tierType, Identified tierType → ((ofTier tierType tiers).map strippedText).Nodup
  unnamed : ∀ e ∈ tiers, Identified e.tierType → Dict.get e.metadata "stable_id" = .null
  loops : ∀ e ∈ tiers, e.tierType = .openLoops →
    isClosed e = false ∧ ∀ last, lastOf strippedText (strippedText e) extracted = some last → isClosed last = false

theorem Sound.nil (extracted : List TierEntry) : Sound budgets extracted [] := by
  constructor <;> simp [ofTier, tokens]

theorem Sound.forget {extracted tiers : List TierEntry} (h : Sound budgets extracted tiers) : Sound budgets [] tiers :=
  { h with loops := fun e he htier => ⟨(h.loops e he htier).1, fun last hlast => by simp at hlast⟩ }

def Extracted (new : List TierEntry) : Prop :=
  ∀ e ∈ new, e.tierType ≠ .failures ∧ (Identified e.tierType → Dict.get e.metadata "stable_id" = .null)

theorem mem_of_mem_mergedPart {current new : List TierEntry} {tierType : TierType} (htier : tierType ≠ .summary) {e : TierEntry}
    (he : e ∈ mergedPart rt budgets current new tierType) : e ∈ current ++ new := by
  rw [mergedPart] at he
  split at he
  · cases he
  · exact (mem_ofTier.mp (abstractTier_subset rt htier _ _ he)).1

theorem Sound.mergeTiers {extracted current new : List TierEntry} (h : Sound budgets extracted current) (hnew : Extracted new) :
    Sound budgets (extracted ++ ofTier .openLoops new) (mergeTiers rt budgets current new) := by
  have hparts := ofTier_mergeTiers rt budgets h.registered new
  have hregistered : ∀ e ∈ CompressionTiers.mergeTiers rt budgets current new, e.tierType ≠ .failures := by
    intro e he hfailures
    have hpart : e ∈ ofTier .failures (CompressionTiers.mergeTiers rt budgets current new) := mem_ofTier.mpr ⟨he, hfailures⟩
    rw [hparts, if_pos rfl] at hpart
    cases hpart
  have hmem : ∀ e ∈ CompressionTiers.mergeTiers rt budgets current new, e ∈ mergedPart rt budgets current new e.tierType := by
    intro e he
    have hpart : e ∈ ofTier e.tierType (CompressionTiers.mergeTiers rt budgets current new) := mem_ofTier.mpr ⟨he, rfl⟩
    rwa [hparts, if_neg (hregistered e he)] at hpart
  constructor
  case registered => exact hregistered
  case caps =>
    intro tierType
    rw [hparts]
    split
    · exact Nat.zero_le _
    · next htier =>
      rw [mergedPart]
      split
      · exact Nat.zero_le _
      · exact tokens_abstractTier rt htier _ _
  case distinct =>
    intro tierType htier
    rw [hparts]
    split
    · exact List.nodup_nil
    · rw [mergedPart]
      split
      · exact List.nodup_nil
      · exact nodup_abstractTier rt htier _ _
  case unnamed =>
    intro e he htier
    have hsummary : e.tierType ≠ .summary := by
      intro heq
      rw [heq] at htier
      simp [Identified] at htier
    rcases List.mem_append.mp (mem_of_mem_mergedPart hsummary (hmem e he)) with hold | hfresh
    · exact h.unnamed e hold htier
    · exact (hnew e hfresh).2 htier
  case loops =>
    intro e he htier
    have hpart := hmem e he
    rw [htier, mergedPart] at hpart
    split at hpart
    · cases hpart
    · have hkept := (trimOldest_sublist _ 0 _).subset hpart
      obtain ⟨hlast, hopen⟩ := lastOf_of_mem_openByKey hkept
      refine ⟨hopen, fun last hextracted => ?_⟩
      rw [ofTier_append, lastOf_append] at hlast
      rw [lastOf_append] at hextracted
      cases hnewest : lastOf strippedText (strippedText e) (ofTier .openLoops new) with
      | some newest =>
        rw [hnewest] at hlast hextracted
        cases hlast
        cases hextracted
        exact hopen
      | none =>
        rw [hnewest, Option.none_or] at hlast hextracted
        have hold := (mem_ofTier.mp (lastOf_some hlast).1).1
        exact (h.loops e hold htier).2 last hextracted

theorem textEntry_spec {tierType : TierType} {value : Json} {refs : List String} {metadata : Dict} {new : List TierEntry}
    (h : textEntry tierType value refs metadata = .ok new) : ∀ e ∈ new, e.tierType = tierType ∧ e.metadata = metadata := by
  intro e he
  rw [textEntry] at h
  split at h
  · obtain ⟨text, -, hnew⟩ := bind_ok_iff.mp h
    cases hnew
    rw [List.mem_singleton] at he
    rw [he]
    exact ⟨rfl, rfl⟩
  · cases h
    cases he

theorem decisionEntries_eq (event : DeltaEvent) : decisionEntries event =
    ((if event.eventType = "decision.made" || Dict.has event.payload "decision"
      then textEntry .decisions (orElse (Dict.get event.payload "decision_text")
        (orElse (Dict.get event.payload "decision") (textJson event.text))) event.refs []
      else pure []) >>= fun decided =>
    (if event.eventType = "constraint.set" || Dict.has event.payload "constraint"
      then textEntry .constraints (orElse (Dict.get event.payload "constraint_text") (Dict.get event.payload "constraint"))
        event.refs []
      else pure []) >>= fun constrained => pure (decided ++ constrained)) := by
  rw [decisionEntries]
  split
  · split
    · rfl
    · rfl
  · split
    · rfl
    · rfl

theorem extracted_decisionEntries {event : DeltaEvent} {new : List TierEntry} (h : decisionEntries event = .ok new) :
    Extracted new := by
  rw [decisionEntries_eq] at h
  obtain ⟨decided, hdecided, h⟩ := bind_ok_iff.mp h
  obtain ⟨constrained, hconstrained, h⟩ := bind_ok_iff.mp h
  cases h
  have hdecisions : ∀ e ∈ decided, e.tierType = .decisions ∧ e.metadata = [] := by
    split at hdecided
    · exact textEntry_spec hdecided
    · cases hdecided
      exact fun e he => nomatch he
  have hconstraints : ∀ e ∈ constrained, e.tierType = .constraints ∧ e.metadata = [] := by
    split at hconstrained
    · exact textEntry_spec hconstrained
    · cases hconstrained
      exact fun e he => nomatch he
  intro e he
  rcases List.mem_append.mp he with he | he
  · obtain ⟨htier, hmetadata⟩ := hdecisions e he
    rw [htier, hmetadata]
    exact ⟨by decide, fun _ => rfl⟩
  · obtain ⟨htier, hmetadata⟩ := hconstraints e he
    rw [htier, hmetadata]
    exact ⟨by decide, fun _ => rfl⟩

theorem extracted_openLoopEntries {event : DeltaEvent} {new : List TierEntry} (h : openLoopEntries event = .ok new) :
    Extracted new := by
  rw [openLoopEntries] at h
  split at h
  · intro e he
    obtain ⟨htier, hmetadata⟩ := textEntry_spec h e he
    rw [htier, hmetadata]
    exact ⟨by decide, fun _ => rfl⟩
  · cases h
    exact fun e he => nomatch he

theorem extracted_of_tierType {e : TierEntry} (h : e.tierType = .summary ∨ e.tierType = .entities ∨ e.tierType = .toolDigests) :
    e.tierType ≠ .failures ∧ (Identified e.tierType → Dict.get e.metadata "stable_id" = .null) := by
  rcases h with h | h | h
  · rw [h]
    exact ⟨by decide, fun hid => by simp [Identified] at hid⟩
  · rw [h]
    exact ⟨by decide, fun hid => by simp [Identified] at hid⟩
  · rw [h]
    exact ⟨by decide, fun hid => by simp [Identified] at hid⟩

theorem extracted_entityEntries {event : DeltaEvent} {new : List TierEntry} (h : entityEntries rt event = .ok new) :
    Extracted new := by
  rw [entityEntries] at h
  obtain ⟨texts, -, h⟩ := bind_ok_iff.mp h
  cases h
  intro e he
  obtain ⟨text, -, rfl⟩ := List.mem_map.mp he
  exact extracted_of_tierType (.inr (.inl rfl))

theorem extracted_toolDigestEntries {event : DeltaEvent} {new : List TierEntry} (h : toolDigestEntries rt event = .ok new) :
    Extracted new := by
  have hdigest : ∀ (digest : String → TierEntry) (summary : Json), (∀ text, (digest text).tierType = .toolDigests) →
      (if summary.truthy then asText summary >>= fun text => pure [digest text] else pure []) = Except.ok new → Extracted new := by
    intro digest summary htier hnew
    split at hnew
    · obtain ⟨text, -, hnew⟩ := bind_ok_iff.mp hnew
      cases hnew
      intro e he
      rw [List.mem_singleton] at he
      exact extracted_of_tierType (.inr (.inr (by rw [he, htier])))
    · cases hnew
      exact fun e he => nomatch he
  rw [toolDigestEntries] at h
  split at h
  · exact hdigest _ _ (fun _ => rfl) h
  · cases h
    exact fun e he => nomatch he

theorem extracted_summaryEntries (events : List DeltaEvent) : Extracted (summaryEntries events) := by
  intro e he
  rw [summaryEntries] at he
  dsimp only at he
  split at he
  · cases he
  · rw [List.mem_singleton] at he
    exact extracted_of_tierType (.inl (by rw [he]))

theorem extracted_flatten {f : DeltaEvent → Except ExtractError (List TierEntry)}
    (hf : ∀ event new, f event = .ok new → Extracted new) {events : List DeltaEvent} {results : List (List TierEntry)}
    (h : events.mapM f = .ok results) : Extracted results.flatten := by
  intro e he
  obtain ⟨new, hnew, he⟩ := List.mem_flatten.mp he
  obtain ⟨event, -, hevent⟩ := mem_mapM_ok h new hnew
  exact hf event new hevent e he

theorem extracted_append {new more : List TierEntry} (h : Extracted new) (h' : Extracted more) : Extracted (new ++ more) :=
  fun e he => (List.mem_append.mp he).elim (h e) (h' e)

theorem extracted_extractAll {events : List DeltaEvent} {new : List TierEntry} (h : extractAll rt events = .ok new) :
    Extracted new := by
  rw [extractAll] at h
  obtain ⟨decisions, hdecisions, h⟩ := bind_ok_iff.mp h
  obtain ⟨entities, hentities, h⟩ := bind_ok_iff.mp h
  obtain ⟨digests, hdigests, h⟩ := bind_ok_iff.mp h
  obtain ⟨loops, hloops, h⟩ := bind_ok_iff.mp h
  cases h
  apply extracted_append
  · apply extracted_append
    · apply extracted_append
      · apply extracted_append
        · exact extracted_summaryEntries events
        · exact extracted_flatten (fun _ _ => extracted_decisionEntries) hdecisions
      · exact extracted_flatten (fun _ _ => extracted_entityEntries) hentities
    · exact extracted_flatten (fun _ _ => extracted_toolDigestEntries) hdigests
  · exact extracted_flatten (fun _ _ => extracted_openLoopEntries) hloops

theorem stableId_of_unnamed (cfg : Config) {e : TierEntry} (h : Dict.get e.metadata "stable_id" = .null) :
    stableId cfg e = .str (cfg.uuid5 e.text) := by
  rw [stableId, h]
  rfl

theorem nodup_structuredItems {cfg : Config} (huuid : Function.Injective cfg.uuid5) {extracted tiers : List TierEntry}
    (h : Sound budgets extracted tiers) {tierType : TierType} (htier : Identified tierType) (fields : TierEntry → Dict)
    (refs : TierEntry → List String) :
    ((structuredItems cfg tiers tierType fields refs).map StructuredItem.id).Nodup := by
  have hids : (structuredItems cfg tiers tierType fields refs).map StructuredItem.id =
      ((ofTier tierType tiers).map TierEntry.text).map fun text => Json.str (cfg.uuid5 text) := by
    rw [structuredItems, List.map_map, List.map_map]
    apply List.map_congr_left
    intro e he
    obtain ⟨hmem, heq⟩ := mem_ofTier.mp he
    exact stableId_of_unnamed cfg (h.unnamed e hmem (heq ▸ htier))
  have htexts : ((ofTier tierType tiers).map TierEntry.text).Nodup := by
    apply List.Nodup.of_map strip
    rw [List.map_map]
    exact h.distinct tierType htier
  rw [hids]
  apply htexts.map
  intro a b hab
  exact huuid (Json.str.inj hab)

theorem composeError_of_nodup {cfg : Config} {structured : CheckpointStructuredState}
    (hdecisions : (structured.decisions.map StructuredItem.id).Nodup)
    (hconstraints : (structured.constraints.map StructuredItem.id).Nodup)
    (hloops : (structured.openLoops.map StructuredItem.id).Nodup) (fromEventId : Option String) (toEventId summaryText : String) :
    composeError cfg fromEventId toEventId summaryText structured ≠ some .stableIdCollision := by
  by_cases hrange : fromEventId = some toEventId
  · simp [composeError, hrange]
  · simp only [composeError, hrange, hdecisions, hconstraints, hloops, decide_true, Bool.not_true, Bool.or_self, Bool.false_eq_true,
      if_false]
    split
    · simp
    · simp

theorem composeError_ne_stableIdCollision {cfg : Config} (huuid : Function.Injective cfg.uuid5) {extracted tiers : List TierEntry}
    (h : Sound budgets extracted tiers) (fromEventId : Option String) (toEventId summaryText : String) :
    composeError cfg fromEventId toEventId summaryText (buildStructuredState cfg tiers) ≠ some .stableIdCollision := by
  apply composeError_of_nodup
  · exact nodup_structuredItems huuid h (.inl rfl) _ _
  · exact nodup_structuredItems huuid h (.inr (.inl rfl)) _ _
  · exact nodup_structuredItems huuid h (.inr (.inr rfl)) _ _

variable (cfg : Config)

def extractedLoops (events : List DeltaEvent) : List TierEntry :=
  match events.mapM excludeRawToolOutput with
  | .error _ => []
  | .ok cleaned =>
    match extractAll cfg.runtime cleaned with
    | .error _ => []
    | .ok new => ofTier .openLoops new

inductive Call where
  | update (sessionId : String) (events : List DeltaEvent) (fresh : Fresh)
  | checkpoint (sessionId : String) (fresh : Fresh)
  | maybeCheckpoint (sessionId : String) (untilEventId : Option String) (fresh : Fresh)
  /-- Another service is started on the same session store. -/
  | restart

structure Traced where
  service : Service
  extracted : String → List TierEntry := fun _ => []

def step (t : Traced) : Call → Traced
  | .update sessionId events fresh =>
    { service := (update cfg t.service sessionId (.given events) fresh).2
      extracted := Function.update t.extracted sessionId (t.extracted sessionId ++ extractedLoops cfg events) }
  | .checkpoint sessionId fresh => { t with service := checkpoint t.service sessionId fresh }
  | .maybeCheckpoint sessionId untilEventId fresh =>
    { t with service := (maybeCheckpoint cfg t.service sessionId untilEventId fresh).2 }
  | .restart => { service := started t.service.persisted }

def initial (hasStore : Bool) : Traced := { service := started (if hasStore then some [] else none) }

/-- What holds of a service and of what its session store has. -/
structure SoundService (s : Service) (extracted : String → List TierEntry) : Prop where
  bundles : ∀ sessionId bundle, s.bundle sessionId = some bundle → Sound cfg.budgets (extracted sessionId) bundle.tiers
  untouched : ∀ sessionId, s.bundle sessionId = none → extracted sessionId = []
  persisted : ∀ row ∈ s.persisted.getD [], Sound cfg.budgets [] row.bundle.tiers
  failures : ∀ failure ∈ s.failures, failure.2 ≠ .stableIdCollision

variable {cfg} {s : Service} {extracted : String → List TierEntry} {sessionId : String}

theorem bundle_setBundle (s : Service) (sessionId other : String) (bundle : CompressionBundle) :
    (s.setBundle sessionId bundle).bundle other = if other = sessionId then some bundle else s.bundle other := by
  rw [Service.bundle, Service.setBundle]
  split
  · next heq =>
    rw [heq]
    exact congrArg (Option.map Prod.snd) (@lookup_upsertRow_self _ _ Prod.fst _ (sessionId, bundle) s.bundles)
  · next hne =>
    have hkey : other ≠ ((sessionId, bundle) : String × CompressionBundle).1 := hne
    rw [lookup_upsertRow_of_ne hkey]
    rfl

theorem SoundService.setBundle (h : SoundService cfg s extracted) {bundle : CompressionBundle} {loops : List TierEntry}
    (hbundle : Sound cfg.budgets loops bundle.tiers) :
    SoundService cfg (s.setBundle sessionId bundle) (Function.update extracted sessionId loops) := by
  constructor
  case bundles =>
    intro other found hfound
    rw [bundle_setBundle] at hfound
    split at hfound
    · next heq =>
      cases hfound
      rw [heq, Function.update_self]
      exact hbundle
    · next hne =>
      rw [Function.update_of_ne hne]
      exact h.bundles other found hfound
  case untouched =>
    intro other hnone
    rw [bundle_setBundle] at hnone
    split at hnone
    · cases hnone
    · next hne =>
      rw [Function.update_of_ne hne]
      exact h.untouched other hnone
  case persisted => exact h.persisted
  case failures => exact h.failures

theorem SoundService.persist (h : SoundService cfg s extracted) {bundle : CompressionBundle}
    (hbundle : Sound cfg.budgets [] bundle.tiers) (fresh : Fresh) :
    SoundService cfg (s.persist sessionId bundle fresh) extracted := by
  refine { h with persisted := ?_ }
  intro row hrow
  cases hrows : s.persisted with
  | none =>
    rw [Service.persist, hrows] at hrow
    cases hrow
  | some rows =>
    have hold := h.persisted row
    rw [Service.persist, hrows] at hrow
    rw [hrows] at hold
    rcases List.mem_append.mp hrow with hrow | hrow
    · exact hold hrow
    · rw [List.mem_singleton] at hrow
      rw [hrow]
      exact hbundle

theorem SoundService.found (h : SoundService cfg s extracted) (sessionId : String) (fresh : Fresh) :
    Sound cfg.budgets (extracted sessionId) (getOrCreateBundle s sessionId fresh).1.tiers := by
  rw [getOrCreateBundle, Service.found]
  cases hbundle : s.bundle sessionId with
  | some bundle => exact h.bundles sessionId bundle hbundle
  | none =>
    cases hrow : s.latestRow sessionId with
    | none => exact Sound.nil _
    | some row =>
      rw [h.untouched sessionId hbundle]
      exact h.persisted row (List.mem_reverse.mp (List.mem_of_find?_eq_some hrow))

theorem SoundService.getOrCreateBundle (h : SoundService cfg s extracted) (sessionId : String) (fresh : Fresh) :
    SoundService cfg (CompactionRebuild.getOrCreateBundle s sessionId fresh).2 extracted := by
  rw [← Function.update_eq_self sessionId extracted]
  exact h.setBundle (h.found sessionId fresh)

theorem SoundService.checkpoint (h : SoundService cfg s extracted) (sessionId : String) (fresh : Fresh) :
    SoundService cfg (CompactionRebuild.checkpoint s sessionId fresh) extracted := by
  have hfound := h.found sessionId fresh
  refine SoundService.persist ?_ hfound.forget fresh
  rw [← Function.update_eq_self sessionId extracted]
  exact (h.getOrCreateBundle sessionId fresh).setBundle hfound

theorem SoundService.withCheckpoints (h : SoundService cfg s extracted) (checkpoints : List CompressionCheckpoint) :
    SoundService cfg { s with checkpoints } extracted := ⟨h.bundles, h.untouched, h.persisted, h.failures⟩

theorem SoundService.maybeCheckpoint (huuid : Function.Injective cfg.uuid5) (h : SoundService cfg s extracted) (sessionId : String)
    (untilEventId : Option String) (fresh : Fresh) :
    SoundService cfg (CompactionRebuild.maybeCheckpoint cfg s sessionId untilEventId fresh).2 extracted := by
  have hfound := h.found sessionId fresh
  have hcreated := h.getOrCreateBundle sessionId fresh
  rw [CompactionRebuild.maybeCheckpoint]
  generalize CompactionRebuild.getOrCreateBundle s sessionId fresh = created at hfound hcreated
  obtain ⟨bundle, s⟩ := created
  dsimp only at hfound hcreated ⊢
  split
  · exact hcreated
  · split
    · next e hfailed =>
      refine { hcreated with failures := ?_ }
      intro failure hfailure
      rcases List.mem_append.mp hfailure with hfailure | hfailure
      · exact hcreated.failures failure hfailure
      · rw [List.mem_singleton] at hfailure
        rw [hfailure]
        intro hcollision
        apply composeError_ne_stableIdCollision huuid hfound
        rw [hfailed]
        exact congrArg some hcollision
    · refine SoundService.persist ?_ hfound.forget fresh
      rw [← Function.update_eq_self sessionId extracted]
      exact (hcreated.withCheckpoints _).setBundle hfound

theorem SoundService.update (h : SoundService cfg s extracted) (sessionId : String) (events : List DeltaEvent) (fresh : Fresh) :
    SoundService cfg (CompactionRebuild.update cfg s sessionId (.given events) fresh).2
      (Function.update extracted sessionId (extracted sessionId ++ extractedLoops cfg events)) := by
  have hkeep : extractedLoops cfg events = [] →
      Function.update extracted sessionId (extracted sessionId ++ extractedLoops cfg events) = extracted := by
    intro hnone
    rw [hnone, List.append_nil, Function.update_eq_self]
  rw [CompactionRebuild.update]
  split
  · next hempty =>
    have hnone : events = [] := hempty
    rw [hkeep (by rw [hnone]; rfl)]
    exact h.getOrCreateBundle sessionId fresh
  · have hextended : SoundService cfg (s.extend sessionId (Batch.read s sessionId (.given events))) extracted :=
      ⟨h.bundles, h.untouched, h.persisted, h.failures⟩
    dsimp only [Batch.read] at hextended ⊢
    cases hcleaned : events.mapM excludeRawToolOutput with
    | error e =>
      rw [hkeep (by rw [extractedLoops, hcleaned])]
      exact hextended
    | ok cleaned =>
      dsimp only
      have hfound := hextended.found sessionId fresh
      have hcreated := hextended.getOrCreateBundle sessionId fresh
      cases hnew : extractAll cfg.runtime cleaned with
      | error e =>
        rw [hkeep (by rw [extractedLoops, hcleaned]; dsimp only; rw [hnew])]
        exact hcreated
      | ok new =>
        have hloops : extractedLoops cfg events = ofTier .openLoops new := by
          rw [extractedLoops, hcleaned]
          dsimp only
          rw [hnew]
        have hmerged := @Sound.mergeTiers cfg.runtime _ _ _ _ hfound (extracted_extractAll hnew)
        rw [← hloops] at hmerged
        dsimp only
        split
        · exact (hcreated.setBundle hmerged).checkpoint sessionId fresh
        · exact hcreated.setBundle hmerged

theorem SoundService.step (huuid : Function.Injective cfg.uuid5) {t : Traced} (h : SoundService cfg t.service t.extracted) (call : Call) :
    SoundService cfg (step cfg t call).service (step cfg t call).extracted := by
  cases call with
  | update sessionId events fresh =>
    dsimp only [CompressionInvariants.step]
    exact h.update sessionId events fresh
  | checkpoint sessionId fresh =>
    dsimp only [CompressionInvariants.step]
    exact h.checkpoint sessionId fresh
  | maybeCheckpoint sessionId untilEventId fresh =>
    dsimp only [CompressionInvariants.step]
    exact h.maybeCheckpoint huuid sessionId untilEventId fresh
  | restart =>
    refine ⟨?_, fun _ _ => rfl, h.persisted, ?_⟩
    · intro sessionId bundle hbundle
      cases hbundle
    · intro failure hfailure
      cases hfailure

theorem SoundService.initial (hasStore : Bool) :
    SoundService cfg (CompressionInvariants.initial hasStore).service (CompressionInvariants.initial hasStore).extracted := by
  refine ⟨?_, fun _ _ => rfl, ?_, ?_⟩
  · intro sessionId bundle hbundle
    cases hbundle
  · intro row hrow
    cases hasStore with
    | false => cases hrow
    | true => cases hrow
  · intro failure hfailure
    cases hfailure

/-- What is claimed of the bundle of a session, after the loops that were extracted for it. -/
structure BundleHolds (cfg : Config) (extracted : List TierEntry) (bundle : CompressionBundle) : Prop where
  caps : ∀ tierType, tokens (ofTier tierType bundle.tiers) ≤ cfg.budgets.capForTier tierType
  distinct : ∀ tierType, Identified tierType → ((ofTier tierType bundle.tiers).map strippedText).Nodup
  loops : ∀ e ∈ bundle.tiers, e.tierType = .openLoops →
    ∀ last, lastOf strippedText (strippedText e) extracted = some last → isClosed last = false
  composed : ∀ fromEventId toEventId,
    composeError cfg fromEventId toEventId bundle.summaryText (buildStructuredState cfg bundle.tiers) ≠ some .stableIdCollision
  seeds : ∀ kEntities kTools budgets seedId, WithinBudgets (buildSeedFromBundle bundle kEntities kTools budgets seedId)

/-- After any calls every bundle fits its caps, has no text twice among what a checkpoint identifies and no loop that
was closed last; no checkpoint fails by a collision of ids, and every seed keeps to its budgets. -/
theorem bundle_invariant (huuid : Function.Injective cfg.uuid5) (hasStore : Bool) (calls : List Call) (sessionId : String)
    (fresh : Fresh) :
    let t := run (step cfg) (initial hasStore) calls
    BundleHolds cfg (t.extracted sessionId) (getOrCreateBundle t.service sessionId fresh).1 ∧
      ∀ failure ∈ t.service.failures, failure.2 ≠ .stableIdCollision := by
  intro t
  have hsound : SoundService cfg t.service t.extracted :=
    run_invariant (I := fun t : Traced => SoundService cfg t.service t.extracted) (fun _ call h => h.step huuid call)
      (SoundService.initial hasStore) calls
  have hfound := hsound.found sessionId fresh
  refine ⟨?_, hsound.failures⟩
  constructor
  case caps => exact hfound.caps
  case distinct => exact hfound.distinct
  case loops => exact fun e he htier => (hfound.loops e he htier).2
  case composed => exact fun fromEventId toEventId => composeError_ne_stableIdCollision huuid hfound fromEventId toEventId _
  case seeds =>
    exact fun kEntities kTools budgets seedId => buildSeedFromBundle_withinBudgets _ kEntities kTools budgets seedId

def planningEvents : List DeltaEvent :=
  greetingEvents ++
    [ { eventId := "e3", eventType := "decision.made", payload := [("decision", .str "use ls")] },
      { eventId := "e4", eventType := "constraint.set", payload := [("constraint", .str "read only")] },
      { eventId := "e5", eventType := "open_loop.created", payload := [("open_loop", .str "sort them?")] } ]

def closingEvents : List DeltaEvent :=
  [ { eventId := "e6", eventType := "open_loop.created", payload := [("open_loop", .str "sort them?"), ("status", .str "closed")] },
    { eventId := "e7", eventType := "decision.made", payload := [("decision", .str "use ls")] } ]

/-- A plan with a question, a checkpoint of it, the answer, and a service that is started again. -/
def planningCalls : List Call :=
  [.update "s" planningEvents (greetingFresh "1"), .maybeCheckpoint "s" (some "e5") (greetingFresh "2"),
    .update "s" closingEvents (greetingFresh "3"), .checkpoint "s" (greetingFresh "4"), .restart]

theorem bundle_invariant_planning :
    let t := run (step plainConfig) (initial true) planningCalls
    BundleHolds plainConfig (t.extracted "s") (getOrCreateBundle t.service "s" (greetingFresh "5")).1 ∧
      ∀ failure ∈ t.service.failures, failure.2 ≠ .stableIdCollision :=
  bundle_invariant Function.injective_id true planningCalls "s" (greetingFresh "5")

end OpenMinion.CompressionInvariants
