import OpenMinion.ArtifactControl
import OpenMinion.TransitionRuns
import Mathlib.Logic.Relation

/-!
# Retention of artifacts

What the operations of one client keep: an active row has its blob, the blob holds what was
ingested, and what an edge or an unexpired alias refers to is active.
-/
namespace OpenMinion.ArtifactRetention
open ArtifactControl ArtifactIndex IsoTimestamps KeyedTables PythonText TransitionRuns

section Sound

variable {cfg : ArtifactCtlConfig} {sha256 : Bytes → String} {ix : Index}

/-- Rows are unique, blobs hold what was ingested, and an active row has a blob. -/
structure Sound (sha256 : Bytes → String) (ix : Index) : Prop where
  unique : UniqueKey ArtifactMeta.sha256 ix.artifacts
  blobs : ∀ b ∈ ix.blobs, sha256 b.data = b.sha256 ∧ ∃ t, .ingested b.data t ∈ ix.history
  present : ∀ sha, ix.Active sha → ∃ b ∈ ix.blobs, b.sha256 = sha

theorem sound_empty : Sound sha256 {} := by
  refine ⟨UniqueKey.nil, ?_, ?_⟩
  · intro b hb
    cases hb
  · rintro sha ⟨row, hrow, -⟩
    cases hrow

theorem Sound.congr (h : Sound sha256 ix) {ix' : Index} (hartifacts : ix'.artifacts = ix.artifacts) (hblobs : ix'.blobs = ix.blobs)
    (hhistory : ix'.history = ix.history) : Sound sha256 ix' where
  unique := hartifacts ▸ h.unique
  blobs := by
    rw [hblobs, hhistory]
    exact h.blobs
  present := by
    intro sha hactive
    rw [Index.Active, hartifacts] at hactive
    rw [hblobs]
    exact h.present sha hactive

theorem Sound.record (h : Sound sha256 ix) (event : Event) : Sound sha256 (ix.record event) where
  unique := h.unique
  blobs := by
    intro b hb
    obtain ⟨hsha, t, ht⟩ := h.blobs b hb
    exact ⟨hsha, t, List.mem_append_left _ ht⟩
  present := h.present

theorem Sound.rows (h : Sound sha256 ix) {artifacts : List ArtifactMeta} (hunique : UniqueKey ArtifactMeta.sha256 artifacts)
    (hactive : ∀ sha, ({ ix with artifacts } : Index).Active sha → ix.Active sha) : Sound sha256 { ix with artifacts } where
  unique := hunique
  blobs := h.blobs
  present := fun sha hsha => h.present sha (hactive sha hsha)

theorem Sound.softDeleteArtifacts (h : Sound sha256 ix) (shas : List String) (deletedAt : DateTime) :
    Sound sha256 (ix.softDeleteArtifacts shas deletedAt) :=
  h.rows (Index.uniqueKey_softDeleteArtifacts h.unique shas deletedAt) fun _ hsha => (Index.active_softDeleteArtifacts.mp hsha).1

theorem Sound.hardDeleteArtifact (h : Sound sha256 ix) (sha : String) : Sound sha256 (ix.hardDeleteArtifact sha) :=
  h.rows h.unique.deleteWhere fun _ hactive => Index.active_hardDeleteArtifact.mp hactive

theorem Sound.removeBlobs (h : Sound sha256 ix) {blobs : List Blob} (hsub : ∀ b ∈ blobs, b ∈ ix.blobs)
    (hkeep : ∀ b ∈ ix.blobs, ix.Active b.sha256 → b ∈ blobs) : Sound sha256 { ix with blobs } where
  unique := h.unique
  blobs := fun b hb => h.blobs b (hsub b hb)
  present := by
    intro sha hactive
    obtain ⟨b, hb, rfl⟩ := h.present sha hactive
    exact ⟨b, hkeep b hb hactive, rfl⟩

theorem isActive_ingestRow (i : Ingest) (now : DateTime) : (ingestRow cfg sha256 i now).isActive = true := rfl

theorem active_storeData {i : Ingest} {now : DateTime} {sha : String} :
    (storeData cfg sha256 ix i now).Active sha ↔ sha = sha256 i.data ∨ ix.Active sha := by
  have hput : (ix.putBytes (sha256 i.data) i.data).Active sha ↔ ix.Active sha := by
    rw [Index.putBytes]
    split
    · exact Iff.rfl
    · exact Iff.rfl
  rw [← hput]
  exact Index.active_upsertArtifact (isActive_ingestRow i now)

theorem blobs_storeData (i : Ingest) (now : DateTime) :
    (storeData cfg sha256 ix i now).blobs =
      if ix.blobExists (sha256 i.data) then ix.blobs else ix.blobs ++ [⟨sha256 i.data, i.data⟩] := by
  rw [storeData, Index.record, Index.upsertArtifact, Index.putBytes]
  split
  · rfl
  · rfl

theorem Sound.storeData (h : Sound sha256 ix) (i : Ingest) (now : DateTime) : Sound sha256 (storeData cfg sha256 ix i now) where
  unique := by
    have hput : UniqueKey ArtifactMeta.sha256 (ix.putBytes (sha256 i.data) i.data).artifacts := by
      rw [Index.putBytes]
      split
      · exact h.unique
      · exact h.unique
    exact Index.uniqueKey_upsertArtifact hput _
  blobs := by
    intro b hb
    have hhistory : (ArtifactControl.storeData cfg sha256 ix i now).history = ix.history ++ [.ingested i.data now] := by
      rw [ArtifactControl.storeData, Index.record, Index.upsertArtifact, Index.putBytes]
      split
      · rfl
      · rfl
    have hold : ∀ b ∈ ix.blobs, sha256 b.data = b.sha256 ∧
        ∃ t, .ingested b.data t ∈ (ArtifactControl.storeData cfg sha256 ix i now).history := by
      intro b hb
      obtain ⟨hsha, t, ht⟩ := h.blobs b hb
      rw [hhistory]
      exact ⟨hsha, t, List.mem_append_left _ ht⟩
    rw [blobs_storeData] at hb
    split at hb
    · exact hold b hb
    · rcases List.mem_append.mp hb with hb | hb
      · exact hold b hb
      · rw [List.mem_singleton.mp hb, hhistory]
        exact ⟨rfl, now, List.mem_append_right _ (List.mem_singleton_self _)⟩
  present := by
    intro sha hactive
    rw [blobs_storeData]
    rcases active_storeData.mp hactive with rfl | hold
    · split
      · next hexists => exact Index.blobExists_iff.mp hexists
      · exact ⟨_, List.mem_append_right _ (List.mem_singleton_self _), rfl⟩
    · obtain ⟨b, hb, hsha⟩ := h.present sha hold
      split
      · exact ⟨b, hb, hsha⟩
      · exact ⟨b, List.mem_append_left _ hb, hsha⟩

/-- What ingest and views write: data with its row, and rows of views. -/
inductive IngestStep (cfg : ArtifactCtlConfig) (sha256 : Bytes → String) (ix : Index) : Index → Prop where
  | data (i : Ingest) (now : DateTime) : IngestStep cfg sha256 ix (storeData cfg sha256 ix i now)
  | view (view : ViewRecord) : IngestStep cfg sha256 ix (ix.upsertView view)

abbrev Ingests (cfg : ArtifactCtlConfig) (sha256 : Bytes → String) : Index → Index → Prop :=
  Relation.ReflTransGen (IngestStep cfg sha256)

theorem ingests_ingestInternal (ix : Index) (i : Ingest) (now : DateTime) :
    Ingests cfg sha256 ix (ingestInternal cfg sha256 ix i now).2 := by
  have hstore : Ingests cfg sha256 ix (storeData cfg sha256 ix i now) := .single (.data i now)
  rw [ingestInternal]
  split
  · exact .refl
  split
  · exact .refl
  split
  · exact .refl
  dsimp only
  split
  · exact hstore
  · split
    · exact hstore
    · exact hstore

theorem ingests_ensureView (ix : Index) (rawSha : String) (r : ViewRequest) (now : DateTime) :
    Ingests cfg sha256 ix (ensureView cfg sha256 ix rawSha r now).2 := by
  rw [ensureView]
  split
  · exact .refl
  split
  · exact .refl
  · next raw _ =>
    split
    · exact .refl
    split
    · exact .refl
    split
    · exact .refl
    split
    · exact .refl
    · next payload mime _ =>
      have hinternal := @ingests_ingestInternal cfg sha256 ix (viewIngest raw (strip r.viewType).toLower payload mime) now
      split
      · next e after heq =>
        rw [heq] at hinternal
        exact hinternal
      · next view after heq =>
        rw [heq] at hinternal
        exact hinternal.tail (.view _)

theorem ingests_autoGenerateViews (sha : String) (c : Clock) (rs : List ViewRequest) (k : ℕ) (ix : Index) :
    Ingests cfg sha256 ix (autoGenerateViews cfg sha256 sha c k rs ix) := by
  induction rs generalizing k ix with
  | nil => exact .refl
  | cons r rs ih => exact (ingests_ensureView ix sha r (c.read k)).trans (ih (k + 1) _)

theorem ingests_ingestBytes (ix : Index) (i : Ingest) (auto : List ViewRequest) (c : Clock) :
    Ingests cfg sha256 ix (ingestBytes cfg sha256 ix i auto c).2 := by
  rw [ingestBytes]
  split
  · exact .refl
  · have hinternal := @ingests_ingestInternal cfg sha256 ix i (c.read 0)
    split
    · next e after heq =>
      rw [heq] at hinternal
      exact hinternal
    · next row after heq =>
      rw [heq] at hinternal
      dsimp only
      split
      · exact hinternal
      · exact hinternal.trans (ingests_autoGenerateViews row.sha256 c auto 1 after)

theorem Sound.ingests (h : Sound sha256 ix) {ix' : Index} (hsteps : Ingests cfg sha256 ix ix') : Sound sha256 ix' := by
  induction hsteps with
  | refl => exact h
  | tail _ step ih =>
    cases step with
    | data i now => exact ih.storeData i now
    | view view => exact ih.congr rfl rfl rfl

theorem active_ingests {ix' : Index} (hsteps : Ingests cfg sha256 ix ix') {sha : String} (h : ix.Active sha) : ix'.Active sha := by
  induction hsteps with
  | refl => exact h
  | tail _ step ih =>
    cases step with
    | data i now => exact active_storeData.mpr (.inr ih)
    | view view => exact ih

theorem foldl_softDeleteViewsForRaw (shas : List String) (deletedAt : DateTime) (ix : Index) :
    ∃ views, shas.foldl (fun ix raw => ix.softDeleteViewsForRaw raw deletedAt) ix = { ix with views } := by
  induction shas generalizing ix with
  | nil => exact ⟨ix.views, rfl⟩
  | cons sha shas ih =>
    obtain ⟨views, hviews⟩ := ih (ix.softDeleteViewsForRaw sha deletedAt)
    exact ⟨views, hviews⟩

/-- `_soft_delete_derived_views` marks views of the given artifacts that nothing refers to. -/
theorem softDeleteDerivedViews_spec (ix : Index) (shas : List String) (deletedAt now : DateTime) :
    ∃ views, (softDeleteDerivedViews ix shas deletedAt now).2 =
        ({ ix with views } : Index).softDeleteArtifacts (softDeleteDerivedViews ix shas deletedAt now).1 deletedAt ∧
      ∀ sha ∈ (softDeleteDerivedViews ix shas deletedAt now).1, sha ∈ ix.viewShas shas ∧ ¬ ix.Rooted now sha := by
  obtain ⟨views, hviews⟩ := foldl_softDeleteViewsForRaw shas deletedAt ix
  refine ⟨views, ?_, ?_⟩
  · rw [softDeleteDerivedViews, hviews]
  · intro sha hsha
    rw [softDeleteDerivedViews] at hsha
    obtain ⟨hcandidate, hfree⟩ := List.mem_filter.mp hsha
    rw [hviews, decide_eq_true_eq, List.mem_append, List.mem_append, not_or, not_or] at hfree
    exact ⟨hcandidate, fun hrooted => hrooted.elim hfree.1.1 hfree.1.2⟩

theorem Sound.softDeleteDerivedViews (h : Sound sha256 ix) (shas : List String) (deletedAt now : DateTime) :
    Sound sha256 (softDeleteDerivedViews ix shas deletedAt now).2 := by
  obtain ⟨views, hafter, -⟩ := softDeleteDerivedViews_spec ix shas deletedAt now
  have hviews : Sound sha256 { ix with views } := h.congr rfl rfl rfl
  rw [hafter]
  exact hviews.softDeleteArtifacts _ deletedAt

theorem Sound.gc (h : Sound sha256 ix) (planOnly : Bool) (keepDays deleteAfterDays : ℕ) (c : Clock) :
    Sound sha256 (gc ix planOnly keepDays deleteAfterDays c).2 := by
  rw [ArtifactControl.gc]
  split
  · dsimp only
    split
    · exact (h.softDeleteArtifacts _ _).softDeleteDerivedViews _ _ _
    · exact h
  · exact h

/-- The blobs that are left while some are purged. -/
structure Purging (ix : Index) (shas : List String) (p : BlobPurge) : Prop where
  frame : p.ix = { ix with blobs := p.ix.blobs }
  sub : ∀ b ∈ p.ix.blobs, b ∈ ix.blobs
  keep : ∀ b ∈ ix.blobs, b.sha256 ∉ shas → b ∈ p.ix.blobs

theorem Purging.remove {shas : List String} {p : BlobPurge} (h : Purging ix shas p) {sha : String} (hsha : sha ∈ shas) :
    Purging ix shas (p.remove sha) := by
  rw [BlobPurge.remove]
  split
  · exact ⟨h.frame, h.sub, h.keep⟩
  split
  · refine ⟨?_, ?_, ?_⟩
    · rw [Index.deleteBlob, h.frame]
    · intro b hb
      exact h.sub b (mem_deleteWhere.mp hb).1
    · intro b hb hout
      refine mem_deleteWhere.mpr ⟨h.keep b hb hout, decide_eq_false ?_⟩
      rintro rfl
      exact hout hsha
  · exact ⟨h.frame, h.sub, h.keep⟩

theorem Purging.foldl {shas : List String} (removed : List String) (hremoved : ∀ sha ∈ removed, sha ∈ shas) {p : BlobPurge}
    (h : Purging ix shas p) : Purging ix shas (removed.foldl BlobPurge.remove p) := by
  induction removed generalizing p with
  | nil => exact h
  | cons sha removed ih =>
    exact ih (fun s hs => hremoved s (List.mem_cons_of_mem _ hs)) (h.remove (hremoved sha List.mem_cons_self))

theorem purging_purgeBlobs {shas first second : List String} (hfirst : ∀ sha ∈ first, sha ∈ shas) (hsecond : ∀ sha ∈ second, sha ∈ shas) :
    Purging ix shas (purgeBlobs ix first second).2 := by
  have hstart : Purging ix shas { ix } := ⟨rfl, fun _ hb => hb, fun _ hb _ => hb⟩
  have hone := Purging.foldl first hfirst hstart
  have hreset : Purging ix shas { first.foldl BlobPurge.remove { ix } with purged := 0 } := ⟨hone.frame, hone.sub, hone.keep⟩
  exact Purging.foldl second hsecond hreset

/-- The marks of `purge` concern the view artifacts that it chose. -/
theorem markPurgedViews_spec (views : List ViewRecord) (viewShas : List String) (now : DateTime) (ix : Index) :
    (∃ artifacts, markPurgedViews ix views viewShas now = { ix with artifacts }) ∧
      (Sound sha256 ix → Sound sha256 (markPurgedViews ix views viewShas now)) ∧
      ∀ sha, ix.Active sha → sha ∉ viewShas → (markPurgedViews ix views viewShas now).Active sha := by
  induction views generalizing ix with
  | nil => exact ⟨⟨ix.artifacts, rfl⟩, id, fun _ h _ => h⟩
  | cons view views ih =>
    have hone : ∃ after : Index, markPurgedViews ix [view] viewShas now = after ∧ (∃ artifacts, after = { ix with artifacts }) ∧
        (Sound sha256 ix → Sound sha256 after) ∧ ∀ sha, ix.Active sha → sha ∉ viewShas → after.Active sha := by
      refine ⟨_, rfl, ?_⟩
      rw [markPurgedViews, List.foldl_cons, List.foldl_nil]
      split
      · next sha _ =>
        split
        · next hsha =>
          refine ⟨⟨_, rfl⟩, fun h => h.softDeleteArtifacts _ _, ?_⟩
          intro other hactive hother
          refine Index.active_softDeleteArtifacts.mpr ⟨hactive, ?_⟩
          rintro ⟨hmem, -⟩
          rw [List.mem_singleton.mp hmem] at hother
          exact hother hsha
        · exact ⟨⟨ix.artifacts, rfl⟩, id, fun _ h _ => h⟩
      · exact ⟨⟨ix.artifacts, rfl⟩, id, fun _ h _ => h⟩
    obtain ⟨after, hafter, ⟨artifacts, hartifacts⟩, hsound, hactive⟩ := hone
    obtain ⟨⟨rest, hrest⟩, hrestsound, hrestactive⟩ := ih after
    have hcons : markPurgedViews ix (view :: views) viewShas now = markPurgedViews after views viewShas now := by
      rw [← hafter]
      rfl
    rw [hcons]
    refine ⟨⟨rest, ?_⟩, fun h => hrestsound (hsound h), fun sha h hsha => hrestactive sha (hactive sha h hsha) hsha⟩
    rw [hrest, hartifacts]

theorem foldl_hardDeleteView (views : List ViewRecord) (ix : Index) :
    ∃ left, views.foldl Index.hardDeleteView ix = { ix with views := left } := by
  induction views generalizing ix with
  | nil => exact ⟨ix.views, rfl⟩
  | cons view views ih =>
    obtain ⟨left, hleft⟩ := ih (ix.hardDeleteView view)
    exact ⟨left, hleft⟩

theorem foldl_hardDeleteArtifact (shas : List String) (ix : Index) :
    (∃ artifacts, shas.foldl Index.hardDeleteArtifact ix = { ix with artifacts }) ∧
      (Sound sha256 ix → Sound sha256 (shas.foldl Index.hardDeleteArtifact ix)) ∧
      ∀ sha, (shas.foldl Index.hardDeleteArtifact ix).Active sha ↔ ix.Active sha := by
  induction shas generalizing ix with
  | nil => exact ⟨⟨ix.artifacts, rfl⟩, id, fun _ => Iff.rfl⟩
  | cons sha shas ih =>
    obtain ⟨⟨artifacts, hartifacts⟩, hsound, hactive⟩ := ih (ix.hardDeleteArtifact sha)
    refine ⟨⟨artifacts, hartifacts⟩, fun h => hsound (h.hardDeleteArtifact sha), ?_⟩
    intro other
    exact (hactive other).trans Index.active_hardDeleteArtifact

theorem not_active_of_deleted (hunique : UniqueKey ArtifactMeta.sha256 ix.artifacts) {row : ArtifactMeta} (hrow : row ∈ ix.artifacts)
    (hdeleted : row.isActive = false) : ¬ ix.Active row.sha256 := by
  rintro ⟨other, hother, hsha, hactive⟩
  rw [hunique.eq_of_key_eq hother hrow hsha, hdeleted] at hactive
  cases hactive

/-- The view artifacts that `purge` marks, none when the dates overflow. -/
def purgeMarks (ix : Index) (graceDays : ℕ) (c : Clock) : List String :=
  match cutoff (c.read 0) graceDays, cutoff (c.read 2) graceDays with
  | some viewsBefore, some retainedAfter =>
    unprotectedViewShas (ix.purgeableViews viewsBefore)
      (ix.activeReferenceShas ++ ix.activeAliasShas (c.read 1) ++ ix.retainedViewShas retainedAfter)
  | _, _ => []

/-- What a purge leaves: all that was active but the view artifacts that it marks. -/
structure Purged (sha256 : Bytes → String) (ix after : Index) (marks : List String) : Prop where
  sound : Sound sha256 ix → Sound sha256 after
  active : Sound sha256 ix → ∀ sha, ix.Active sha → sha ∉ marks → after.Active sha
  aliases : ∀ a ∈ after.aliases, a ∈ ix.aliases
  edges : ∀ e ∈ after.edges, e ∈ ix.edges
  history : after.history = ix.history

theorem purged_purge (ix : Index) (graceDays : ℕ) (c : Clock) :
    Purged sha256 ix (purge cfg ix graceDays c).2 (purgeMarks ix graceDays c) := by
  rw [purge]
  split
  · next viewsBefore retainedAfter artifactsBefore aliasesBefore edgesBefore hviews hretained _ _ _ =>
    have hmarks : purgeMarks ix graceDays c = unprotectedViewShas (ix.purgeableViews viewsBefore)
        (ix.activeReferenceShas ++ ix.activeAliasShas (c.read 1) ++ ix.retainedViewShas retainedAfter) := by
      rw [purgeMarks, hviews, hretained]
    dsimp only
    rw [← hmarks]
    generalize ix.activeReferenceShas ++ ix.activeAliasShas (c.read 1) ++ ix.retainedViewShas retainedAfter = protectedShas
    generalize ix.purgeableViews viewsBefore = views
    generalize purgeMarks ix graceDays c = marks
    obtain ⟨⟨rows, hrows⟩, hmarkedSound, hmarkedActive⟩ := @markPurgedViews_spec sha256 views marks (c.read 3) ix
    generalize markPurgedViews ix views marks (c.read 3) = marked at *
    generalize hshas : ((marked.purgeableArtifacts artifactsBefore).filter fun r => decide (r.sha256 ∉ protectedShas)).map
      (·.sha256) = shas
    -- the blobs of the rows that were marked long ago go, in one order or the other
    have hpurging : Purging marked shas (if cfg.deleteViewsFirst then
        purgeBlobs marked ((views.filterMap (·.viewSha256)).filter fun sha => sha ∈ marks && sha ∈ shas) shas
        else purgeBlobs marked shas ((views.filterMap (·.viewSha256)).filter fun sha => sha ∈ marks && sha ∈ shas)).2 := by
      have hviewBlobs : ∀ sha ∈ (views.filterMap (·.viewSha256)).filter fun sha => sha ∈ marks && sha ∈ shas, sha ∈ shas := by
        intro sha hsha
        have hboth := (List.mem_filter.mp hsha).2
        rw [Bool.and_eq_true] at hboth
        exact of_decide_eq_true hboth.2
      split
      · exact purging_purgeBlobs hviewBlobs fun _ h => h
      · exact purging_purgeBlobs (fun _ h => h) hviewBlobs
    generalize (if cfg.deleteViewsFirst = true then
        purgeBlobs marked ((views.filterMap (·.viewSha256)).filter fun sha => decide (sha ∈ marks) && decide (sha ∈ shas)) shas
        else purgeBlobs marked shas ((views.filterMap (·.viewSha256)).filter fun sha => decide (sha ∈ marks) && decide (sha ∈ shas))) =
      phases at hpurging ⊢
    obtain ⟨one, two⟩ := phases
    dsimp only at hpurging ⊢
    have hinactive : Sound sha256 marked → ∀ sha ∈ shas, ¬ marked.Active sha := by
      intro h sha hsha
      rw [← hshas] at hsha
      obtain ⟨row, hrow, rfl⟩ := List.mem_map.mp hsha
      obtain ⟨hmem, hdeleted⟩ := List.mem_filter.mp (List.mem_filter.mp hrow).1
      refine not_active_of_deleted h.unique hmem ?_
      obtain ⟨t, ht, -⟩ := (Option.any_eq_true _ _).mp hdeleted
      rw [ArtifactMeta.isActive, ht]
      rfl
    obtain ⟨left, hleft⟩ := foldl_hardDeleteView views two.ix
    rw [hleft]
    obtain ⟨⟨artifacts, hartifacts⟩, hhardSound, hhardActive⟩ :=
      @foldl_hardDeleteArtifact sha256 shas { two.ix with views := left }
    have hblobs : Sound sha256 marked → Sound sha256 ({ two.ix with views := left } : Index) := by
      intro h
      have hremoved : Sound sha256 { marked with blobs := two.ix.blobs } :=
        h.removeBlobs hpurging.sub fun b hb hactive => hpurging.keep b hb fun hmem => hinactive h _ hmem hactive
      rw [hpurging.frame]
      exact hremoved.congr rfl rfl rfl
    refine ⟨?_, ?_, ?_, ?_, ?_⟩
    · intro h
      exact (hhardSound (hblobs (hmarkedSound h))).congr rfl rfl rfl
    · intro h sha hactive hmark
      refine (hhardActive sha).mpr ?_
      rw [hpurging.frame]
      exact hmarkedActive sha hactive hmark
    · intro a ha
      have hmem := (mem_deleteWhere.mp ha).1
      rw [hartifacts, hpurging.frame, hrows] at hmem
      exact hmem
    · intro e he
      have hmem := (mem_deleteWhere.mp he).1
      rw [hartifacts, hpurging.frame, hrows] at hmem
      exact hmem
    · rw [hartifacts, hpurging.frame, hrows]
      rfl
  · exact ⟨id, fun _ _ h _ => h, fun _ h => h, fun _ h => h, rfl⟩

def RootsActive (ix : Index) (now : DateTime) : Prop := ∀ sha, ix.Rooted now sha → ix.Active sha

theorem roots_ingests {ix' : Index} (hsteps : Ingests cfg sha256 ix ix') : ix'.edges = ix.edges ∧ ix'.aliases = ix.aliases := by
  induction hsteps with
  | refl => exact ⟨rfl, rfl⟩
  | tail _ step ih =>
    cases step with
    | data i now =>
      rw [storeData, Index.record, Index.upsertArtifact, Index.putBytes]
      split
      · exact ih
      · exact ih
    | view view => exact ih

theorem rooted_congr {ix' : Index} (hedges : ix'.edges = ix.edges) (haliases : ix'.aliases = ix.aliases) {now : DateTime} {sha : String} :
    ix'.Rooted now sha ↔ ix.Rooted now sha := by
  rw [Index.Rooted, Index.Rooted, Index.activeReferenceShas, Index.activeAliasShas, hedges, haliases]
  rfl

theorem rooted_of_subset {ix' : Index} (haliases : ∀ a ∈ ix'.aliases, a ∈ ix.aliases) (hedges : ∀ e ∈ ix'.edges, e ∈ ix.edges)
    {now : DateTime} {sha : String} (h : ix'.Rooted now sha) : ix.Rooted now sha := by
  rcases h with hedge | halias
  · obtain ⟨e, he, hlive, hsha⟩ := Index.mem_activeReferenceShas.mp hedge
    exact .inl (Index.mem_activeReferenceShas.mpr ⟨e, hedges e he, hlive, hsha⟩)
  · obtain ⟨a, ha, hlive, hsha⟩ := Index.mem_activeAliasShas.mp halias
    exact .inr (Index.mem_activeAliasShas.mpr ⟨a, haliases a ha, hlive, hsha⟩)

theorem active_of_resolveActiveSha {text sha : String} {now : DateTime} (h : resolveActiveSha ix text now = .ok sha) : ix.Active sha := by
  rw [resolveActiveSha] at h
  split at h
  · cases h
  · split at h
    · next hactive =>
      cases h
      exact Index.active_of_getActive hactive
    · cases h

theorem aliasSet_cases (ix : Index) (name refOrSha : String) (overwrite : Bool) (expiresAt : Option DateTime) (c : Clock) :
    (aliasSet cfg ix name refOrSha overwrite expiresAt c).2 = ix ∨
      ∃ sha t, ix.Active sha ∧ (aliasSet cfg ix name refOrSha overwrite expiresAt c).2 = ix.setAlias (strip name) sha (c.read 3) t := by
  rw [aliasSet]
  split
  · exact .inl rfl
  split
  · exact .inl rfl
  split
  · exact .inl rfl
  · next sha hresolve =>
    have hactive := active_of_resolveActiveSha hresolve
    split
    · split
      · exact .inl rfl
      · exact .inr ⟨sha, _, hactive, rfl⟩
    · exact .inr ⟨sha, _, hactive, rfl⟩

theorem rooted_setAlias {name target : String} {updatedAt now : DateTime} {expiresAt : Option DateTime} {sha : String}
    (h : (ix.setAlias name target updatedAt expiresAt).Rooted now sha) : sha = target ∨ ix.Rooted now sha := by
  rcases h with hedge | halias
  · exact .inr (.inl hedge)
  · obtain ⟨a, ha, hlive, rfl⟩ := Index.mem_activeAliasShas.mp halias
    rcases mem_upsertRow ha with rfl | hold
    · exact .inl rfl
    · exact .inr (.inr (Index.mem_activeAliasShas.mpr ⟨a, hold, hlive, rfl⟩))

theorem refAdd_cases (ix : Index) (ownerType ownerId refOrSha : String) (c : Clock) :
    (refAdd ix ownerType ownerId refOrSha c).2 = ix ∨
      ∃ sha, ix.Active sha ∧ (refAdd ix ownerType ownerId refOrSha c).2 = ix.addReference ownerType ownerId sha (c.read 1) := by
  rw [refAdd]
  split
  · exact .inl rfl
  split
  · exact .inl rfl
  split
  · exact .inl rfl
  · next sha hresolve => exact .inr ⟨sha, active_of_resolveActiveSha hresolve, rfl⟩

theorem referenced_addReference {ownerType ownerId target : String} {createdAt : DateTime} {sha : String}
    (h : sha ∈ (ix.addReference ownerType ownerId target createdAt).activeReferenceShas) :
    sha = target ∨ sha ∈ ix.activeReferenceShas := by
  obtain ⟨e, he, hlive, rfl⟩ := Index.mem_activeReferenceShas.mp h
  rw [Index.addReference] at he
  dsimp only at he
  split at he
  · obtain ⟨r, hr, rfl⟩ := mem_updateWhere.mp he
    split at hlive
    · next hmatch =>
      rw [if_pos hmatch]
      rw [Bool.and_eq_true, Bool.and_eq_true, decide_eq_true_eq, decide_eq_true_eq, decide_eq_true_eq] at hmatch
      exact .inl hmatch.2
    · next hmatch =>
      rw [if_neg hmatch]
      exact .inr (Index.mem_activeReferenceShas.mpr ⟨r, hr, hlive, rfl⟩)
  · rcases List.mem_append.mp he with hold | hlast
    · exact .inr (Index.mem_activeReferenceShas.mpr ⟨e, hold, hlive, rfl⟩)
    · rw [List.mem_singleton.mp hlast]
      exact .inl rfl

theorem rooted_addReference {ownerType ownerId target : String} {createdAt now : DateTime} {sha : String}
    (h : (ix.addReference ownerType ownerId target createdAt).Rooted now sha) : sha = target ∨ ix.Rooted now sha := by
  rcases h with hedge | halias
  · exact (referenced_addReference hedge).imp_right .inl
  · exact .inr (.inr halias)

theorem rooted_removeReference {ownerType ownerId target : String} {deletedAt now : DateTime} {sha : String}
    (h : (ix.removeReference ownerType ownerId target deletedAt).Rooted now sha) : ix.Rooted now sha := by
  rcases h with hedge | halias
  · obtain ⟨e, he, hlive, rfl⟩ := Index.mem_activeReferenceShas.mp hedge
    obtain ⟨r, hr, rfl⟩ := mem_updateWhere.mp he
    split at hlive
    · cases hlive
    · next hmatch =>
      rw [if_neg hmatch]
      exact .inl (Index.mem_activeReferenceShas.mpr ⟨r, hr, hlive, rfl⟩)
  · exact .inr halias

/-- What `gc` marks: artifacts outside of its protected set, and views that nothing refers to. -/
theorem active_gc {planOnly : Bool} {keepDays deleteAfterDays : ℕ} {c : Clock} {sha : String} (h : ix.Active sha)
    (hkeep : ∀ since before, cutoff (c.read 1) keepDays = some since → cutoff (c.read 2) deleteAfterDays = some before →
      sha ∉ ix.eligibleForGc before (protectedFromGc ix since (c.read 0)) ∧
        (sha ∈ ix.viewShas (ix.eligibleForGc before (protectedFromGc ix since (c.read 0))) → ix.Rooted (c.read 4) sha)) :
    (gc ix planOnly keepDays deleteAfterDays c).2.Active sha := by
  rw [gc]
  split
  · next since before hsince hbefore =>
    obtain ⟨heligible, hderived⟩ := hkeep since before hsince hbefore
    dsimp only
    split
    · obtain ⟨views, hafter, hmarked⟩ := softDeleteDerivedViews_spec
        (ix.softDeleteArtifacts (ix.eligibleForGc before (protectedFromGc ix since (c.read 0))) (c.read 3))
        (ix.eligibleForGc before (protectedFromGc ix since (c.read 0))) (c.read 3) (c.read 4)
      rw [hafter]
      refine Index.active_softDeleteArtifacts.mpr ⟨?_, ?_⟩
      · exact Index.active_softDeleteArtifacts.mpr ⟨h, fun hmem => heligible hmem.1⟩
      · rintro ⟨hmem, -⟩
        obtain ⟨hview, hroot⟩ := hmarked sha hmem
        exact hroot (hderived hview)
    · exact h
  · exact h

theorem roots_gc (planOnly : Bool) (keepDays deleteAfterDays : ℕ) (c : Clock) :
    (gc ix planOnly keepDays deleteAfterDays c).2.edges = ix.edges ∧ (gc ix planOnly keepDays deleteAfterDays c).2.aliases = ix.aliases := by
  rw [gc]
  split
  · dsimp only
    split
    · next since before _ _ _ =>
      obtain ⟨views, hafter, -⟩ := softDeleteDerivedViews_spec
        (ix.softDeleteArtifacts (ix.eligibleForGc before (protectedFromGc ix since (c.read 0))) (c.read 3))
        (ix.eligibleForGc before (protectedFromGc ix since (c.read 0))) (c.read 3) (c.read 4)
      rw [hafter]
      exact ⟨rfl, rfl⟩
    · exact ⟨rfl, rfl⟩
  · exact ⟨rfl, rfl⟩

theorem not_mem_eligible_of_rooted {since before now : DateTime} {sha : String} (h : ix.Rooted now sha) :
    sha ∉ ix.eligibleForGc before (protectedFromGc ix since now) := by
  intro hmem
  have hfree := of_decide_eq_true (List.mem_filter.mp hmem).2
  refine hfree (List.mem_append_left _ (List.mem_append_left _ ?_))
  exact List.mem_append.mpr h

theorem not_mem_purgeMarks_of_rooted {graceDays : ℕ} {c : Clock} {sha : String} (h : ix.Rooted (c.read 1) sha) :
    sha ∉ purgeMarks ix graceDays c := by
  rw [purgeMarks]
  split
  · intro hmem
    have hfree := (List.mem_filter.mp hmem).2
    rw [Bool.and_eq_true, decide_eq_true_eq, decide_eq_true_eq] at hfree
    exact hfree.2 (List.mem_append_left _ (List.mem_append.mpr h))
  · exact List.not_mem_nil

theorem Sound.performOp (h : Sound sha256 ix) (c : Clock) {op : Op} (hop : op.isDelete = false) :
    Sound sha256 (performOp cfg sha256 ix c op) := by
  cases op with
  | ingestBytes i auto => exact h.ingests (ingests_ingestBytes ix i auto c)
  | ensureView refOrSha request =>
    rw [ArtifactControl.performOp]
    split
    · exact h
    · next sha _ => exact h.ingests (ingests_ensureView ix sha request (c.read 1))
  | aliasSet name refOrSha overwrite expiresAt =>
    rw [ArtifactControl.performOp]
    obtain hsame | ⟨sha, t, -, hset⟩ := aliasSet_cases ix name refOrSha overwrite expiresAt c
    · rw [hsame]
      exact h
    · rw [hset]
      exact h.congr rfl rfl rfl
  | aliasDelete name => exact h.congr rfl rfl rfl
  | refAdd ownerType ownerId refOrSha =>
    rw [ArtifactControl.performOp]
    obtain hsame | ⟨sha, -, hadd⟩ := refAdd_cases ix ownerType ownerId refOrSha c
    · rw [hsame]
      exact h
    · rw [hadd]
      exact h.congr rfl rfl rfl
  | refRemove ownerType ownerId refOrSha =>
    rw [ArtifactControl.performOp, refRemove]
    split
    · exact h
    · split
      · exact h
      · exact h.congr rfl rfl rfl
  | gc planOnly keepDays deleteAfterDays => exact h.gc planOnly keepDays deleteAfterDays c
  | purge graceDays => exact (purged_purge ix graceDays c).sound h
  | delete refOrSha soft => cases hop

theorem rootsActive_performOp (hsound : Sound sha256 ix) {now : DateTime} (h : RootsActive ix now) {c : Clock} (hc : now ≤ c.read 0)
    {op : Op} (hop : op.isDelete = false) : RootsActive (performOp cfg sha256 ix c op) c.finish := by
  have hfinish : now ≤ c.finish := hc.trans (c.le_finish 0)
  have hbefore : ∀ sha, ix.Rooted c.finish sha → ix.Active sha := fun sha hsha => h sha (hsha.mono hfinish)
  have hingests : ∀ {ix' : Index}, Ingests cfg sha256 ix ix' → RootsActive ix' c.finish := by
    intro ix' hsteps sha hsha
    obtain ⟨hedges, haliases⟩ := roots_ingests hsteps
    exact active_ingests hsteps (hbefore sha ((rooted_congr hedges haliases).mp hsha))
  cases op with
  | ingestBytes i auto => exact hingests (ingests_ingestBytes ix i auto c)
  | ensureView refOrSha request =>
    rw [performOp]
    split
    · exact hbefore
    · next sha _ => exact hingests (ingests_ensureView ix sha request (c.read 1))
  | aliasSet name refOrSha overwrite expiresAt =>
    rw [performOp]
    obtain hsame | ⟨target, t, hactive, hset⟩ := aliasSet_cases ix name refOrSha overwrite expiresAt c
    · rw [hsame]
      exact hbefore
    · rw [hset]
      intro sha hsha
      obtain rfl | hold := rooted_setAlias hsha
      · exact hactive
      · exact hbefore sha hold
  | aliasDelete name =>
    intro sha hsha
    have haliases : ∀ a ∈ (ix.deleteAlias name).aliases, a ∈ ix.aliases := fun a ha => (mem_deleteWhere.mp ha).1
    have hedges : ∀ e ∈ (ix.deleteAlias name).edges, e ∈ ix.edges := fun _ he => he
    exact hbefore sha (rooted_of_subset haliases hedges hsha)
  | refAdd ownerType ownerId refOrSha =>
    rw [performOp]
    obtain hsame | ⟨target, hactive, hadd⟩ := refAdd_cases ix ownerType ownerId refOrSha c
    · rw [hsame]
      exact hbefore
    · rw [hadd]
      intro sha hsha
      obtain rfl | hold := rooted_addReference hsha
      · exact hactive
      · exact hbefore sha hold
  | refRemove ownerType ownerId refOrSha =>
    rw [performOp, refRemove]
    split
    · exact hbefore
    · split
      · exact hbefore
      · intro sha hsha
        exact hbefore sha (rooted_removeReference hsha)
  | gc planOnly keepDays deleteAfterDays =>
    intro sha hsha
    obtain ⟨hedges, haliases⟩ := @roots_gc ix planOnly keepDays deleteAfterDays c
    have hrooted : ix.Rooted c.finish sha := (rooted_congr hedges haliases).mp hsha
    refine active_gc (hbefore sha hrooted) ?_
    intro since before _ _
    exact ⟨not_mem_eligible_of_rooted (hrooted.mono (c.le_finish 0)), fun _ => hrooted.mono (c.le_finish 4)⟩
  | purge graceDays =>
    intro sha hsha
    have hpurged := @purged_purge cfg sha256 ix graceDays c
    have hrooted : ix.Rooted c.finish sha := rooted_of_subset hpurged.aliases hpurged.edges hsha
    exact hpurged.active hsound sha (hbefore sha hrooted) (not_mem_purgeMarks_of_rooted (hrooted.mono (c.le_finish 1)))
  | delete refOrSha soft => cases hop

/-- A caller that may read the artifact: any one, but the session of the row for an opaque one. -/
def MayRead (row : ArtifactMeta) (sessionId : Option String) : Prop :=
  row.isOpaque = true → sessionId.getD "" ≠ "" ∧ sessionId = row.sessionId

/-- In every run without a delete, what an edge or an unexpired alias refers to is active and reads as it was
ingested. -/
theorem referenced_artifacts_survive (cfg : ArtifactCtlConfig) (sha256 : Bytes → String) (start : DateTime) (actions : List Action)
    (h : Guarded (stepAction cfg sha256) (fun s a => InOrder s a ∧ a.op.isDelete = false) ⟨{}, start⟩ actions) :
    let s := run (stepAction cfg sha256) ⟨{}, start⟩ actions
    (∀ sha now, s.now ≤ now → s.ix.Rooted now sha →
        ∃ row data t, s.ix.getActive sha = some row ∧ .ingested data t ∈ s.ix.history ∧ sha256 data = sha ∧
          ∀ sessionId, MayRead row sessionId → readBytes s.ix sha sessionId = .ok data) ∧
      ∀ row ∈ s.ix.artifacts, row.isActive = true → s.ix.blobExists row.sha256 = true := by
  intro s
  have hinitial : Sound sha256 ({} : Index) ∧ RootsActive {} start := by
    refine ⟨sound_empty, ?_⟩
    rintro sha (hedge | halias)
    · cases hedge
    · cases halias
  have hfinal : Sound sha256 s.ix ∧ RootsActive s.ix s.now := by
    refine Guarded.invariant (I := fun s => Sound sha256 s.ix ∧ RootsActive s.ix s.now) ?_ h hinitial
    rintro s a ⟨hsound, hroots⟩ ⟨horder, hop⟩
    exact ⟨hsound.performOp a.clock hop, rootsActive_performOp hsound hroots horder hop⟩
  obtain ⟨hsound, hroots⟩ := hfinal
  refine ⟨?_, ?_⟩
  · intro sha now hnow hrooted
    have hactive := hroots sha (hrooted.mono hnow)
    obtain ⟨row, hrow⟩ := hactive.getActive hsound.unique
    have hexists : s.ix.blobExists sha = true := Index.blobExists_iff.mpr (hsound.present sha hactive)
    obtain ⟨data, hdata⟩ := Option.isSome_iff_exists.mp hexists
    obtain ⟨hsha, t, ht⟩ := hsound.blobs _ (Index.mem_of_getBlob hdata)
    refine ⟨row, data, t, hrow, ht, hsha, ?_⟩
    intro sessionId hmay
    rw [readBytes, hrow]
    dsimp only
    rw [if_neg, hdata]
    rw [Bool.and_eq_true, Bool.or_eq_true, decide_eq_true_eq, decide_eq_true_eq]
    rintro ⟨hpolicy, hsession⟩
    obtain ⟨hne, hsame⟩ := hmay hpolicy
    exact hsession.elim hne fun hdiffers => hdiffers hsame
  · intro row hrow hactive
    exact Index.blobExists_iff.mpr (hsound.present row.sha256 ⟨row, hrow, rfl, hactive⟩)

end Sound

def onDay (day : ℕ) (h : microsPerDay * day < endOfTime := by decide) : DateTime := ⟨microsPerDay * day, h⟩

theorem firstDay_lt_endOfTime : microsPerDay * 738000 < endOfTime := by decide

theorem secondDay_lt_endOfTime : microsPerDay * 738001 < endOfTime := by decide

def emptySha : String := "e3b0c44298fc1c149afbf4c8996fb92427ae41e4649b934ca495991b7852b855"

def collectReferenced : List Action :=
  [⟨.ingestBytes { data := [] } [], .at (onDay 738000 firstDay_lt_endOfTime)⟩,
    ⟨.refAdd "session" "s1" emptySha, .at (onDay 738001 secondDay_lt_endOfTime)⟩, ⟨.gc false 0 0, .at (onDay 740000)⟩, ⟨.purge 0, .at (onDay 740001)⟩]

theorem collectReferenced_survives :
    let s := run (stepAction {} fun _ => emptySha) ⟨{}, onDay 738000⟩ collectReferenced
    s.ix.Rooted (onDay 740001) emptySha ∧
      ∃ row data t, s.ix.getActive emptySha = some row ∧ .ingested data t ∈ s.ix.history ∧
        ∀ sessionId, MayRead row sessionId → readBytes s.ix emptySha sessionId = .ok data := by
  have hguarded : Guarded (stepAction {} fun _ => emptySha) (fun s a => InOrder s a ∧ a.op.isDelete = false) ⟨{}, onDay 738000⟩
      collectReferenced := by
    refine .cons ⟨?_, rfl⟩ (.cons ⟨?_, rfl⟩ (.cons ⟨?_, rfl⟩ (.cons ⟨?_, rfl⟩ (.nil _))))
    · exact le_refl (onDay 738000)
    · exact (by decide : onDay 738000 ≤ onDay 738001)
    · exact (by decide : onDay 738001 ≤ onDay 740000)
    · exact (by decide : onDay 740000 ≤ onDay 740001)
  have hrooted : (run (stepAction {} fun _ => emptySha) ⟨{}, onDay 738000⟩ collectReferenced).ix.Rooted (onDay 740001) emptySha := by
    decide +kernel
  obtain ⟨row, data, t, hrow, ht, -, hread⟩ := (referenced_artifacts_survive {} (fun _ => emptySha) (onDay 738000) collectReferenced
    hguarded).1 emptySha (onDay 740001) (le_refl (onDay 740001)) hrooted
  exact ⟨hrooted, row, data, t, hrow, ht, hread⟩

/-- An opaque artifact that is referred to is not read without its session. -/
theorem opaque_artifact_not_read :
    let actions : List Action :=
      [⟨.ingestBytes { data := [], sessionId := some "s1", isOpaque := true } [], .at (onDay 738000)⟩,
        ⟨.refAdd "session" "s1" emptySha, .at (onDay 738001)⟩]
    let s := run (stepAction {} fun _ => emptySha) ⟨{}, onDay 738000⟩ actions
    s.ix.Rooted (onDay 738001) emptySha ∧ (∀ a ∈ actions, a.op.isDelete = false) ∧
      readBytes s.ix emptySha none = .error ⟨.policyDenied, "Opaque input belongs to another session"⟩ := by
  refine ⟨by decide +kernel, ?_, by decide +kernel⟩
  intro a ha
  simp only [List.mem_cons, List.not_mem_nil, or_false] at ha
  rcases ha with rfl | rfl
  · rfl
  · rfl

end OpenMinion.ArtifactRetention
