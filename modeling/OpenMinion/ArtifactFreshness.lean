import OpenMinion.ArtifactRetention

/-!
# Fresh artifacts

An artifact is fresh for some days after its bytes were ingested. Its row keeps the time of the first ingest, and marks
reach it as a view of another artifact: what is fresh stays where no such step reaches it.
-/
namespace OpenMinion.ArtifactFreshness
open ArtifactControl ArtifactIndex ArtifactRetention IsoTimestamps KeyedTables PythonText TransitionRuns

structure Retention where
  keepDays : ℕ := 14
  deleteAfterDays : ℕ := 7
  graceDays : ℕ := 7

/-- The store, and what callers ingested and did not delete since, with the times. -/
structure Tracked where
  store : State
  ingested : List (String × DateTime) := []

section Freshness

variable (cfg : ArtifactCtlConfig) (sha256 : Bytes → String)

def ingestedAfter (s : Tracked) (a : Action) : List (String × DateTime) :=
  match a.op with
  | .ingestBytes i auto =>
    match (ingestBytes cfg sha256 s.store.ix i auto a.clock).1 with
    | .ok _ => (sha256 i.data, a.clock.read 0) :: s.ingested
    | .error _ => s.ingested
  | .delete refOrSha _ =>
    match resolveSha s.store.ix refOrSha (a.clock.read 0) with
    | .ok sha => s.ingested.filter fun p => p.1 ≠ sha
    | .error _ => s.ingested
  | _ => s.ingested

def stepTracked (s : Tracked) (a : Action) : Tracked := ⟨stepAction cfg sha256 s.store a, ingestedAfter cfg sha256 s a⟩

def Within (days : ℕ) (t now : DateTime) : Prop := now.micros < t.micros + microsPerDay * days

def Covered (r : Retention) : Op → Prop
  | .ingestBytes _ _ => True
  | .ensureView _ _ => True
  | .gc _ keepDays deleteAfterDays => keepDays = r.keepDays ∧ deleteAfterDays = r.deleteAfterDays
  | .purge graceDays => graceDays = r.graceDays
  | .delete _ soft => soft = true
  | _ => False

/-- An active view of a raw artifact that satisfies a condition. -/
def HasView (ix : Index) (sha : String) (ofRaw : String → Prop) : Prop :=
  ∃ v ∈ ix.views, v.deletedAt = none ∧ v.viewSha256 = some sha ∧ ofRaw v.rawSha256

/-- An artifact with an active row of the day or of a later one. -/
def Recent (ix : Index) (since : DateTime) (sha : String) : Prop :=
  ∃ row ∈ ix.artifacts, row.sha256 = sha ∧ row.isActive = true ∧ since.ordinal ≤ row.createdAt.ordinal

/-- An artifact whose row was created before both periods, and that is no view of a recent one. -/
def Outdated (ix : Index) (since before : DateTime) (sha : String) : Prop :=
  (∃ row ∈ ix.artifacts, row.sha256 = sha ∧ row.isActive = true ∧ row.createdAt.ordinal < since.ordinal ∧
    row.createdAt.ordinal < before.ordinal) ∧ ¬ HasView ix sha (Recent ix since)

def RowBefore (ix : Index) (sha : String) (t : DateTime) : Prop := ∃ row ∈ ix.artifacts, row.sha256 = sha ∧ row.createdAt < t

instance (days : ℕ) (t now : DateTime) : Decidable (Within days t now) := inferInstanceAs (Decidable (_ < _))

instance (ix : Index) (sha : String) (ofRaw : String → Prop) [DecidablePred ofRaw] : Decidable (HasView ix sha ofRaw) :=
  inferInstanceAs (Decidable (∃ v ∈ ix.views, _))

instance (ix : Index) (since : DateTime) : DecidablePred (Recent ix since) :=
  fun _ => inferInstanceAs (Decidable (∃ row ∈ ix.artifacts, _))

instance (ix : Index) (since before : DateTime) : DecidablePred (Outdated ix since before) :=
  fun _ => inferInstanceAs (Decidable (_ ∧ _))

instance (ix : Index) (sha : String) (t : DateTime) : Decidable (RowBefore ix sha t) :=
  inferInstanceAs (Decidable (∃ row ∈ ix.artifacts, _))

def Spares (r : Retention) (ix : Index) (c : Clock) (sha : String) (t : DateTime) : Op → Prop
  | .gc planOnly _ _ => planOnly = true ∨
    ∀ since before, cutoff (c.read 1) r.keepDays = some since → cutoff (c.read 2) r.deleteAfterDays = some before →
      (RowBefore ix sha t → ¬ Outdated ix since before sha) ∧
        (HasView ix sha (Outdated ix since before) → HasView ix sha fun raw => ¬ Outdated ix since before raw)
  | .purge _ =>
    ∀ deletedBefore retainedAfter, cutoff (c.read 0) r.graceDays = some deletedBefore → cutoff (c.read 2) r.graceDays = some retainedAfter →
      (∃ v ∈ ix.views, v.viewSha256 = some sha ∧ v.deletedAt.any (fun t => t ≤ deletedBefore) = true) →
        ∃ v ∈ ix.views, v.viewSha256 = some sha ∧ v.deletedAt.all (fun t => retainedAfter < t) = true
  | .delete refOrSha _ =>
    ∀ deleted, resolveSha ix refOrSha (c.read 0) = .ok deleted → deleted ≠ sha →
      (HasView ix sha fun raw => raw = deleted) → HasView ix sha fun raw => raw ≠ deleted
  | _ => True

/-- A step of the configuration that spares what is fresh when it ends. -/
def SparesFresh (r : Retention) (s : Tracked) (a : Action) : Prop :=
  InOrder s.store a ∧ Covered r a.op ∧
    ∀ p ∈ s.ingested, Within (min r.keepDays r.graceDays) p.2 a.clock.finish → Spares r s.store.ix a.clock p.1 p.2 a.op

variable {cfg sha256} {ix : Index}

theorem Within.mono {days : ℕ} {t now later : DateTime} (hle : now ≤ later) (h : Within days t later) : Within days t now :=
  lt_of_le_of_lt (b := later.micros) hle h

theorem ordinal_mono {a b : DateTime} (h : a ≤ b) : a.ordinal ≤ b.ordinal := by
  have hmicros : a.micros ≤ b.micros := h
  exact Nat.succ_le_succ (Nat.div_le_div_right hmicros)

theorem cutoff_micros {now since : DateTime} {days : ℕ} (h : cutoff now days = some since) :
    since.micros + microsPerDay * days = now.micros := by
  rw [cutoff, DateTime.addMicros.eq_def] at h
  generalize microsPerDay * days = span at h ⊢
  split at h
  · next d hspan =>
    have hzero : span = 0 := by
      rw [Int.ofNat_eq_natCast] at hspan
      omega
    have hd : d = 0 := by
      rw [hzero] at hspan
      exact (Int.ofNat.inj hspan).symm
    split at h
    · cases h
      simp [hzero, hd]
    · cases h
  · next d hspan =>
    have hd : d + 1 = span := by
      rw [Int.negSucc_eq] at hspan
      omega
    split at h
    · next hle =>
      cases h
      rw [← hd]
      exact Nat.sub_add_cancel hle
    · cases h

theorem recent_of_within {c : Clock} {days keepDays : ℕ} {t since : DateTime} (h : Within days t c.finish) (hdays : days ≤ keepDays)
    (hsince : cutoff (c.read 1) keepDays = some since) : since ≤ t := by
  have hread : (c.read 1).micros ≤ c.finish.micros := c.le_finish 1
  have hspan : microsPerDay * days ≤ microsPerDay * keepDays := Nat.mul_le_mul_left microsPerDay hdays
  have hcut := cutoff_micros hsince
  have hlt : c.finish.micros < t.micros + microsPerDay * days := h
  have hmicros : since.micros ≤ t.micros := by omega
  exact hmicros

theorem mem_views_foldl {shas : List String} {deletedAt : DateTime} {v : ViewRecord} (hmem : v ∈ ix.views) (hraw : v.rawSha256 ∉ shas) :
    v ∈ (shas.foldl (fun ix raw => ix.softDeleteViewsForRaw raw deletedAt) ix).views := by
  induction shas generalizing ix with
  | nil => exact hmem
  | cons sha shas ih =>
    rw [List.mem_cons, not_or] at hraw
    refine ih ?_ hraw.2
    refine mem_updateWhere.mpr ⟨v, hmem, ?_⟩
    rw [if_neg]
    simp [hraw.1]

theorem active_softDeleteDerivedViews {shas : List String} {deletedAt now : DateTime} {sha : String} (h : ix.Active sha)
    (hkeep : (HasView ix sha fun raw => raw ∈ shas) → HasView ix sha fun raw => raw ∉ shas) :
    (softDeleteDerivedViews ix shas deletedAt now).2.Active sha := by
  obtain ⟨views, hviews⟩ := foldl_softDeleteViewsForRaw shas deletedAt ix
  rw [softDeleteDerivedViews]
  refine Index.active_softDeleteArtifacts.mpr ⟨?_, ?_⟩
  · rw [hviews]
    exact h
  · rintro ⟨hmarked, -⟩
    obtain ⟨hcandidate, hfree⟩ := List.mem_filter.mp hmarked
    obtain ⟨raw, hraw, hview⟩ := List.mem_flatMap.mp hcandidate
    obtain ⟨v, hv, hsha⟩ := List.mem_filterMap.mp hview
    obtain ⟨hmem, hlisted⟩ := List.mem_filter.mp hv
    rw [Bool.and_eq_true, decide_eq_true_eq, Option.isNone_iff_eq_none] at hlisted
    obtain ⟨w, hw, hlive, hwsha, hother⟩ := hkeep ⟨v, hmem, hlisted.2, hsha, hlisted.1 ▸ hraw⟩
    have hleft := @mem_views_foldl ix shas deletedAt w hw hother
    refine of_decide_eq_true hfree (List.mem_append_right _ ?_)
    refine List.mem_filterMap.mpr ⟨w, List.mem_filter.mpr ⟨hleft, ?_⟩, hwsha⟩
    rw [hlive]
    rfl

/-- What `gc` collects is outdated. -/
theorem outdated_of_eligible {since before now : DateTime} {sha : String} (h : sha ∈ ix.eligibleForGc before (protectedFromGc ix since now)) :
    Outdated ix since before sha := by
  obtain ⟨hlisted, hfree⟩ := List.mem_filter.mp h
  obtain ⟨row, hrow, rfl⟩ := List.mem_map.mp hlisted
  obtain ⟨hmem, hold⟩ := List.mem_filter.mp hrow
  rw [Bool.and_eq_true, decide_eq_true_eq] at hold
  have hout := of_decide_eq_true hfree
  rw [protectedFromGc, List.mem_append, not_or] at hout
  have hkept : ∀ raw, Recent ix since raw →
      raw ∈ ix.activeReferenceShas ++ ix.activeAliasShas now ++ ix.recentArtifactShas since := by
    rintro raw ⟨r, hr, rfl, hactive, hday⟩
    refine List.mem_append_right _ (List.mem_map.mpr ⟨r, List.mem_filter.mpr ⟨hr, ?_⟩, rfl⟩)
    rw [Bool.and_eq_true, decide_eq_true_eq]
    exact ⟨hactive, hday⟩
  refine ⟨⟨row, hmem, rfl, hold.1, ?_, hold.2⟩, ?_⟩
  · refine lt_of_not_ge fun hday => hout.1 ?_
    exact hkept row.sha256 ⟨row, hmem, rfl, hold.1, hday⟩
  · rintro ⟨v, hv, hlive, hsha, hrecent⟩
    refine hout.2 (List.mem_flatMap.mpr ⟨v.rawSha256, hkept v.rawSha256 hrecent, ?_⟩)
    refine List.mem_filterMap.mpr ⟨v, List.mem_filter.mpr ⟨hv, ?_⟩, hsha⟩
    simp [hlive]

theorem active_gc_of_spared {planOnly : Bool} {keepDays deleteAfterDays : ℕ} {c : Clock} {sha : String} (h : ix.Active sha)
    (hkeep : planOnly = true ∨ ∀ since before, cutoff (c.read 1) keepDays = some since → cutoff (c.read 2) deleteAfterDays = some before →
      ¬ Outdated ix since before sha ∧
        (HasView ix sha (Outdated ix since before) → HasView ix sha fun raw => ¬ Outdated ix since before raw)) :
    (gc ix planOnly keepDays deleteAfterDays c).2.Active sha := by
  rw [gc]
  split
  · next since before hsince hbefore =>
    dsimp only
    split
    · next hmarks =>
      rw [Bool.and_eq_true] at hmarks
      rcases hkeep with hplan | hkeep
      · rw [hplan] at hmarks
        cases hmarks.1
      · obtain ⟨hfresh, hviews⟩ := hkeep since before hsince hbefore
        refine active_softDeleteDerivedViews ?_ ?_
        · exact Index.active_softDeleteArtifacts.mpr ⟨h, fun hmem => hfresh (outdated_of_eligible hmem.1)⟩
        · rintro ⟨v, hv, hlive, hsha, hraw⟩
          obtain ⟨w, hw, hwlive, hwsha, hwraw⟩ := hviews ⟨v, hv, hlive, hsha, outdated_of_eligible hraw⟩
          exact ⟨w, hw, hwlive, hwsha, fun hmem => hwraw (outdated_of_eligible hmem)⟩
    · exact h
  · exact h

theorem not_mem_purgeMarks_of_spared {graceDays : ℕ} {c : Clock} {sha : String}
    (hkeep : ∀ deletedBefore retainedAfter, cutoff (c.read 0) graceDays = some deletedBefore → cutoff (c.read 2) graceDays = some retainedAfter →
      (∃ v ∈ ix.views, v.viewSha256 = some sha ∧ v.deletedAt.any (fun t => t ≤ deletedBefore) = true) →
        ∃ v ∈ ix.views, v.viewSha256 = some sha ∧ v.deletedAt.all (fun t => retainedAfter < t) = true) :
    sha ∉ purgeMarks ix graceDays c := by
  rw [purgeMarks]
  split
  · next deletedBefore retainedAfter hdeleted hretained =>
    intro hmem
    obtain ⟨hview, hfree⟩ := List.mem_filter.mp hmem
    obtain ⟨v, hv, hsha⟩ := List.mem_filterMap.mp hview
    obtain ⟨hvmem, hlong⟩ := List.mem_filter.mp hv
    obtain ⟨w, hw, hwsha, hwkept⟩ := hkeep deletedBefore retainedAfter hdeleted hretained ⟨v, hvmem, hsha, hlong⟩
    rw [Bool.and_eq_true, decide_eq_true_eq, decide_eq_true_eq] at hfree
    refine hfree.2 (List.mem_append_right _ ?_)
    exact List.mem_filterMap.mpr ⟨w, List.mem_filter.mpr ⟨hw, hwkept⟩, hwsha⟩
  · exact List.not_mem_nil

theorem delete_ok {refOrSha deleted : String} {c : Clock} (h : resolveSha ix refOrSha (c.read 0) = .ok deleted) :
    (delete ix refOrSha true c).2 = (if deleted ∈ (softDeleteDerivedViews ix [deleted] (c.read 1) (c.read 2)).2.activeViewShas
      then (softDeleteDerivedViews ix [deleted] (c.read 1) (c.read 2)).2
      else (softDeleteDerivedViews ix [deleted] (c.read 1) (c.read 2)).2.softDeleteArtifacts [deleted] (c.read 1)).record (.deleted deleted) := by
  rw [delete, h]
  rfl

theorem sound_delete (h : Sound sha256 ix) (refOrSha : String) (c : Clock) : Sound sha256 (delete ix refOrSha true c).2 := by
  cases hresolve : resolveSha ix refOrSha (c.read 0) with
  | error e =>
    rw [delete, hresolve]
    exact h
  | ok deleted =>
    rw [delete_ok hresolve]
    have hderived := h.softDeleteDerivedViews [deleted] (c.read 1) (c.read 2)
    refine Sound.record ?_ _
    split
    · exact hderived
    · exact hderived.softDeleteArtifacts _ _

theorem active_delete {refOrSha deleted sha : String} {c : Clock} (hresolve : resolveSha ix refOrSha (c.read 0) = .ok deleted)
    (hne : deleted ≠ sha) (h : ix.Active sha)
    (hkeep : (HasView ix sha fun raw => raw = deleted) → HasView ix sha fun raw => raw ≠ deleted) :
    (delete ix refOrSha true c).2.Active sha := by
  have hderived : (softDeleteDerivedViews ix [deleted] (c.read 1) (c.read 2)).2.Active sha := by
    refine active_softDeleteDerivedViews h ?_
    simpa only [List.mem_singleton] using hkeep
  rw [delete_ok hresolve]
  split
  · exact hderived
  · refine Index.active_softDeleteArtifacts.mpr ⟨hderived, ?_⟩
    rintro ⟨hmem, -⟩
    exact hne (List.mem_singleton.mp hmem).symm

theorem ingestInternal_ok {i : Ingest} {now : DateTime} {row : ArtifactMeta} {after : Index}
    (h : ingestInternal cfg sha256 ix i now = (.ok row, after)) : after = storeData cfg sha256 ix i now := by
  rw [ingestInternal] at h
  split at h
  · cases h
  split at h
  · cases h
  split at h
  · cases h
  dsimp only at h
  split at h
  · cases h
  split at h
  · cases h
  · cases h
    rfl

theorem active_ingestBytes {i : Ingest} {auto : List ViewRequest} {c : Clock} {row : ArtifactMeta}
    (h : (ingestBytes cfg sha256 ix i auto c).1 = .ok row) : (ingestBytes cfg sha256 ix i auto c).2.Active (sha256 i.data) := by
  have hstored : (storeData cfg sha256 ix i (c.read 0)).Active (sha256 i.data) := active_storeData.mpr (.inl rfl)
  revert h
  rw [ingestBytes]
  split
  · intro h
    cases h
  · split
    · intro h
      cases h
    · next stored after hinternal =>
      intro _
      rw [← ingestInternal_ok hinternal] at hstored
      dsimp only
      split
      · exact hstored
      · exact active_ingests (ingests_autoGenerateViews stored.sha256 c auto 1 after) hstored

def FreshActive (r : Retention) (s : Tracked) : Prop :=
  ∀ p ∈ s.ingested, Within (min r.keepDays r.graceDays) p.2 s.store.now → s.store.ix.Active p.1

theorem sound_stepTracked {r : Retention} {s : Tracked} {a : Action} (h : Sound sha256 s.store.ix) (hok : SparesFresh r s a) :
    Sound sha256 (stepTracked cfg sha256 s a).store.ix := by
  obtain ⟨op, c⟩ := a
  obtain ⟨-, hcovered, -⟩ := hok
  cases hdelete : op.isDelete with
  | false => exact h.performOp c hdelete
  | true =>
    cases op with
    | delete refOrSha soft =>
      have hsoft : soft = true := hcovered
      rw [hsoft]
      exact sound_delete h refOrSha c
    | _ => cases hdelete

theorem freshActive_stepTracked {r : Retention} {s : Tracked} {a : Action} (hsound : Sound sha256 s.store.ix) (h : FreshActive r s)
    (hok : SparesFresh r s a) : FreshActive r (stepTracked cfg sha256 s a) := by
  obtain ⟨op, c⟩ := a
  obtain ⟨horder, hcovered, hspares⟩ := hok
  have hfinish : s.store.now ≤ c.finish := le_trans horder (c.le_finish 0)
  have hbefore : ∀ p ∈ s.ingested, Within (min r.keepDays r.graceDays) p.2 c.finish → s.store.ix.Active p.1 :=
    fun p hp hwithin => h p hp (hwithin.mono hfinish)
  intro p hp hwithin
  cases op with
  | ingestBytes i auto =>
    have hsteps := @ingests_ingestBytes cfg sha256 s.store.ix i auto c
    rw [stepTracked, ingestedAfter] at hp
    dsimp only at hp
    split at hp
    · next row hresult =>
      rcases List.mem_cons.mp hp with rfl | hold
      · exact active_ingestBytes hresult
      · exact active_ingests hsteps (hbefore p hold hwithin)
    · exact active_ingests hsteps (hbefore p hp hwithin)
  | ensureView refOrSha request =>
    have hactive := hbefore p hp hwithin
    rw [stepTracked, stepAction, performOp]
    split
    · exact hactive
    · next sha _ => exact active_ingests (ingests_ensureView s.store.ix sha request (c.read 1)) hactive
  | gc planOnly keepDays deleteAfterDays =>
    obtain ⟨hkeep, hafter⟩ : keepDays = r.keepDays ∧ deleteAfterDays = r.deleteAfterDays := hcovered
    subst hkeep hafter
    refine active_gc_of_spared (hbefore p hp hwithin) ((hspares p hp hwithin).imp_right ?_)
    intro hspared since before hsince hbefore
    obtain ⟨hrow, hviews⟩ := hspared since before hsince hbefore
    refine ⟨?_, hviews⟩
    -- a row as young as the ingest has its day within the period
    intro hold
    have hrows := hold.1
    obtain ⟨row, hmem, hsha, -, hday, -⟩ := hrows
    by_cases hlt : row.createdAt < p.2
    · exact hrow ⟨row, hmem, hsha, hlt⟩ hold
    · have hrecent : since ≤ p.2 := recent_of_within hwithin (min_le_left _ _) hsince
      exact absurd (ordinal_mono (hrecent.trans (not_lt.mp hlt))) (not_le.mpr hday)
  | purge graceDays =>
    have hgrace : graceDays = r.graceDays := hcovered
    subst hgrace
    have hpurged := @purged_purge cfg sha256 s.store.ix r.graceDays c
    exact hpurged.active hsound p.1 (hbefore p hp hwithin) (not_mem_purgeMarks_of_spared (hspares p hp hwithin))
  | delete refOrSha soft =>
    have hsoft : soft = true := hcovered
    subst hsoft
    rw [stepTracked, ingestedAfter] at hp
    dsimp only at hp
    split at hp
    · next deleted hresolve =>
      obtain ⟨hmem, hother⟩ := List.mem_filter.mp hp
      have hne : deleted ≠ p.1 := fun heq => of_decide_eq_true hother heq.symm
      exact active_delete hresolve hne (hbefore p hmem hwithin) (hspares p hmem hwithin deleted hresolve hne)
    · next e hresolve =>
      have hsame : (delete s.store.ix refOrSha true c).2 = s.store.ix := by
        rw [delete, hresolve]
      rw [stepTracked, stepAction, performOp, hsame]
      exact hbefore p hp hwithin
  | aliasSet name refOrSha overwrite expiresAt => cases hcovered
  | aliasDelete name => cases hcovered
  | refAdd ownerType ownerId refOrSha => cases hcovered
  | refRemove ownerType ownerId refOrSha => cases hcovered

/-- In every run whose steps spare it, an artifact that was ingested within the periods and not deleted since is
active and has its blob. -/
theorem fresh_artifacts_survive (cfg : ArtifactCtlConfig) (sha256 : Bytes → String) (r : Retention) (start : DateTime) (actions : List Action)
    (h : Guarded (stepTracked cfg sha256) (SparesFresh r) ⟨⟨{}, start⟩, []⟩ actions) :
    let s := run (stepTracked cfg sha256) ⟨⟨{}, start⟩, []⟩ actions
    ∀ sha t now, (sha, t) ∈ s.ingested → s.store.now ≤ now → Within (min r.keepDays r.graceDays) t now →
      s.store.ix.Active sha ∧ s.store.ix.blobExists sha = true := by
  intro s
  have hfinal : Sound sha256 s.store.ix ∧ FreshActive r s := by
    refine Guarded.invariant (I := fun s => Sound sha256 s.store.ix ∧ FreshActive r s) ?_ h ?_
    · rintro s a ⟨hsound, hfresh⟩ hok
      exact ⟨sound_stepTracked hsound hok, freshActive_stepTracked hsound hfresh hok⟩
    · exact ⟨sound_empty, fun p hp => absurd hp List.not_mem_nil⟩
  obtain ⟨hsound, hfresh⟩ := hfinal
  intro sha t now hmem hnow hwithin
  have hactive := hfresh (sha, t) hmem (hwithin.mono hnow)
  exact ⟨hactive, Index.blobExists_iff.mpr (hsound.present sha hactive)⟩

end Freshness

def textView : ViewRequest := ⟨"text", "p1", fun _ data => .ok (data, "text/plain")⟩

def collectFresh : List Action :=
  [⟨.ingestBytes { data := [] } [textView], .at (onDay 738000 firstDay_lt_endOfTime)⟩, ⟨.gc false 14 7, .at (onDay 738005)⟩, ⟨.purge 7, .at (onDay 738006)⟩]

theorem collectFresh_survives :
    let s := run (stepTracked {} fun _ => emptySha) ⟨⟨{}, onDay 738000⟩, []⟩ collectFresh
    Within 7 (onDay 738000) (onDay 738006) ∧ s.store.ix.Active emptySha ∧ s.store.ix.blobExists emptySha = true := by
  have hguarded : Guarded (stepTracked {} fun _ => emptySha) (SparesFresh {}) ⟨⟨{}, onDay 738000⟩, []⟩ collectFresh := by
    refine .cons ⟨le_refl (onDay 738000), trivial, ?_⟩ (.cons ⟨?_, ⟨rfl, rfl⟩, ?_⟩ (.cons ⟨?_, rfl, ?_⟩ (.nil _)))
    · intro p hp
      cases hp
    · exact (by decide : onDay 738000 ≤ onDay 738005)
    · intro p hp _
      obtain rfl : p = (emptySha, onDay 738000) := List.mem_singleton.mp hp
      refine .inr fun since before hsince hbefore => ?_
      obtain rfl : onDay 737991 = since := Option.some.inj ((by decide +kernel : some (onDay 737991) = cutoff (onDay 738005) 14).trans hsince)
      obtain rfl : onDay 737998 = before := Option.some.inj ((by decide +kernel : some (onDay 737998) = cutoff (onDay 738005) 7).trans hbefore)
      decide +kernel
    · exact (by decide : onDay 738005 ≤ onDay 738006)
    · intro p hp _ deletedBefore retainedAfter _ _ hdeleted
      have hnone : ¬ ∃ v ∈ (run (stepTracked {} fun _ => emptySha) ⟨⟨{}, onDay 738000⟩, []⟩ (collectFresh.take 2)).store.ix.views,
          v.deletedAt.isSome = true := by
        decide +kernel
      obtain ⟨v, hv, -, hlong⟩ := hdeleted
      obtain ⟨t, ht, -⟩ := (Option.any_eq_true _ _).mp hlong
      exact absurd ⟨v, hv, Option.isSome_iff_exists.mpr ⟨t, ht⟩⟩ hnone
  have hwithin : Within 7 (onDay 738000) (onDay 738006) := by decide +kernel
  refine ⟨hwithin, ?_⟩
  exact fresh_artifacts_survive {} (fun _ => emptySha) {} (onDay 738000) collectFresh hguarded emptySha (onDay 738000) (onDay 738006)
    (by decide +kernel) (le_refl (onDay 738006)) hwithin

/-- A text that was its own view, deleted, ingested again without views, and purged a day later. -/
theorem fresh_artifact_purged :
    let actions : List Action :=
      [⟨.ingestBytes { data := [] } [textView], .at (onDay 738000)⟩, ⟨.delete emptySha true, .at (onDay 738001)⟩,
        ⟨.ingestBytes { data := [] } [], .at (onDay 738020)⟩, ⟨.purge 7, .at (onDay 738021)⟩]
    let s := run (stepTracked {} fun _ => emptySha) ⟨⟨{}, onDay 738000⟩, []⟩ actions
    Guarded (stepTracked {} fun _ => emptySha) (fun s a => InOrder s.store a ∧ Covered {} a.op) ⟨⟨{}, onDay 738000⟩, []⟩ actions ∧
      (emptySha, onDay 738020) ∈ s.ingested ∧ s.store.now = onDay 738021 ∧ Within (min 14 7) (onDay 738020) (onDay 738021) ∧
      ¬ s.store.ix.Active emptySha ∧ s.store.ix.blobExists emptySha = false := by
  refine ⟨?_, by decide +kernel, rfl, by decide +kernel, by decide +kernel, by decide +kernel⟩
  refine .cons ⟨?_, trivial⟩ (.cons ⟨?_, rfl⟩ (.cons ⟨?_, trivial⟩ (.cons ⟨?_, rfl⟩ (.nil _))))
  · exact le_refl (onDay 738000)
  · exact (by decide : onDay 738000 ≤ onDay 738001)
  · exact (by decide : onDay 738001 ≤ onDay 738020)
  · exact (by decide : onDay 738020 ≤ onDay 738021)

/-- While nothing is deleted for good, what is read under a digest has that digest and was ingested,
and every active artifact has its bytes. -/
theorem reads_match_digests (cfg : ArtifactCtlConfig) (sha256 : Bytes → String) (start : DateTime) {actions : List Action}
    (h : ∀ a ∈ actions, ∀ refOrSha, a.op ≠ .delete refOrSha false) :
    let s := run (stepAction cfg sha256) ⟨{}, start⟩ actions
    (∀ sha sessionId data, readBytes s.ix sha sessionId = .ok data → sha256 data = sha ∧ ∃ t, .ingested data t ∈ s.ix.history) ∧
      ∀ sha, s.ix.Active sha → s.ix.blobExists sha = true := by
  intro s
  have hsound : Sound sha256 s.ix := by
    have hguarded : Guarded (stepAction cfg sha256) (fun _ a => ∀ refOrSha, a.op ≠ .delete refOrSha false) ⟨{}, start⟩ actions :=
      .of_mem h _
    refine hguarded.invariant (I := fun s => Sound sha256 (State.ix s)) ?_ sound_empty
    rintro s ⟨op, c⟩ hs hop
    cases hdelete : op.isDelete with
    | false => exact hs.performOp c hdelete
    | true =>
      cases op with
      | delete refOrSha soft =>
        cases soft with
        | true => exact sound_delete hs refOrSha c
        | false => exact absurd rfl (hop refOrSha)
      | _ => cases hdelete
  refine ⟨fun sha sessionId data hread => ?_, fun sha hactive => Index.blobExists_iff.mpr (hsound.present sha hactive)⟩
  rw [readBytes] at hread
  split at hread
  · cases hread
  · split at hread
    · cases hread
    · split at hread
      · cases hread
      · next hblob =>
        cases hread
        exact hsound.blobs _ (Index.mem_of_getBlob hblob)

theorem reads_match_digests_deleted :
    let s := run (stepAction {} fun _ => emptySha) ⟨{}, onDay 738000⟩
      [⟨.ingestBytes { data := [] } [], .at (onDay 738000)⟩, ⟨.delete emptySha true, .at (onDay 738001)⟩,
        ⟨.ingestBytes { data := [] } [], .at (onDay 738002)⟩]
    s.ix.Active emptySha ∧ s.ix.blobExists emptySha = true := by
  intro s
  have hactive : s.ix.Active emptySha := by decide +kernel
  exact ⟨hactive, (reads_match_digests {} (fun _ => emptySha) (onDay 738000) (by simp)).2 emptySha hactive⟩

end OpenMinion.ArtifactFreshness
