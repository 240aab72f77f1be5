import OpenMinion.IsoTimestamps
import OpenMinion.JsonValues
import OpenMinion.KeyedTables
import OpenMinion.PythonText

/-!
# The artifact index and the blob store

The tables of `SQLiteArtifactIndex` with their statements, and the blobs beside them. Times are
instants: their texts compare as they do (`IsoTimestamps.toIsoUtc_lt_iff`).
-/
namespace OpenMinion.ArtifactIndex
open IsoTimestamps JsonValues KeyedTables PythonText

abbrev Bytes := List UInt8

structure ArtifactMeta where
  sha256 : String
  sizeBytes : ℕ
  mime : String
  createdAt : DateTime
  originalName : Option String := none
  originalPath : Option String := none
  label : Option String := none
  sessionId : Option String := none
  traceId : Option String := none
  agentId : Option String := none
  encoding : Option String := none
  deletedAt : Option DateTime := none
  metadata : Dict := []
  deriving DecidableEq

structure ViewRecord where
  rawSha256 : String
  viewType : String
  schemaVersion : String := "v1"
  policyHash : String
  viewSha256 : Option String
  mime : String
  sizeBytes : ℕ
  createdAt : DateTime
  deletedAt : Option DateTime := none
  deriving DecidableEq

structure AliasRecord where
  name : String
  sha256 : String
  updatedAt : DateTime
  expiresAt : Option DateTime := none
  deriving DecidableEq

structure ReferenceEdge where
  ownerType : String
  ownerId : String
  sha256 : String
  createdAt : DateTime
  deletedAt : Option DateTime := none
  deriving DecidableEq

structure Blob where
  sha256 : String
  data : Bytes
  deriving DecidableEq

inductive Event where
  | ingested (data : Bytes) (time : DateTime)
  | deleted (sha256 : String)
  deriving DecidableEq

structure Index where
  artifacts : List ArtifactMeta := []
  views : List ViewRecord := []
  aliases : List AliasRecord := []
  edges : List ReferenceEdge := []
  blobs : List Blob := []
  /-- The ingests and deletes so far; no operation reads it. -/
  history : List Event := []
  deriving DecidableEq

def ArtifactMeta.isActive (row : ArtifactMeta) : Bool := row.deletedAt.isNone

/-- `(meta_json or {}).get("opaque")`. -/
def ArtifactMeta.isOpaque (row : ArtifactMeta) : Bool := (Dict.get row.metadata "opaque").truthy

def AliasRecord.liveAt (row : AliasRecord) (now : DateTime) : Bool := row.expiresAt.all fun t => now < t

/-- `now - timedelta(days=days)`, which may leave the range of dates. -/
def cutoff (now : DateTime) (days : ℕ) : Option DateTime := now.addMicros (-(microsPerDay * days : ℕ))

namespace Index

variable (ix : Index)

def getArtifact (sha : String) : Option ArtifactMeta := lookup ArtifactMeta.sha256 sha ix.artifacts

def getActive (sha : String) : Option ArtifactMeta := (ix.getArtifact sha).filter ArtifactMeta.isActive

/-- `upsert_artifact`: a row that is there is only undeleted. -/
def upsertArtifact (row : ArtifactMeta) : Index :=
  { ix with
    artifacts :=
      if ix.artifacts.any fun r => r.sha256 = row.sha256 then
        updateWhere (fun r => r.sha256 = row.sha256) (fun r => { r with deletedAt := row.deletedAt }) ix.artifacts
      else ix.artifacts ++ [row] }

def softDeleteArtifacts (shas : List String) (deletedAt : DateTime) : Index :=
  { ix with
    artifacts := updateWhere (fun r => r.sha256 ∈ shas && strip r.sha256 ≠ "" && r.isActive)
      (fun r => { r with deletedAt := some deletedAt }) ix.artifacts }

/-- How many rows `soft_delete_artifacts` marks. -/
def markedCount (shas : List String) : ℕ :=
  (ix.artifacts.filter fun r => r.sha256 ∈ shas && strip r.sha256 ≠ "" && r.isActive).length

def hardDeleteArtifact (sha : String) : Index :=
  { ix with artifacts := deleteWhere (fun r => r.sha256 = sha && r.deletedAt.isSome) ix.artifacts }

def recentArtifactShas (since : DateTime) : List String :=
  (ix.artifacts.filter fun r => r.isActive && since.ordinal ≤ r.createdAt.ordinal).map (·.sha256)

def eligibleForGc (before : DateTime) (protectedShas : List String) : List String :=
  ((ix.artifacts.filter fun r => r.isActive && r.createdAt.ordinal < before.ordinal).map (·.sha256)).filter
    fun sha => sha ∉ protectedShas

def purgeableArtifacts (before : DateTime) : List ArtifactMeta :=
  ix.artifacts.filter fun r => r.deletedAt.any fun t => t ≤ before

def sameView (v w : ViewRecord) : Bool :=
  v.rawSha256 = w.rawSha256 && v.viewType = w.viewType && v.schemaVersion = w.schemaVersion && v.policyHash = w.policyHash

def getView (rawSha viewType schemaVersion policyHash : String) : Option ViewRecord :=
  ix.views.find? fun v => v.rawSha256 = rawSha && v.viewType = viewType && v.schemaVersion = schemaVersion &&
    v.policyHash = policyHash && v.deletedAt.isNone

def upsertView (view : ViewRecord) : Index :=
  { ix with
    views := if ix.views.any (sameView view) then updateWhere (sameView view) (fun _ => view) ix.views else ix.views ++ [view] }

def listViews (rawSha : String) : List ViewRecord := ix.views.filter fun v => v.rawSha256 = rawSha && v.deletedAt.isNone

def viewShas (rawShas : List String) : List String := rawShas.flatMap fun raw => (ix.listViews raw).filterMap (·.viewSha256)

def activeViewShas : List String := (ix.views.filter fun v => v.deletedAt.isNone).filterMap (·.viewSha256)

def retainedViewShas (after : DateTime) : List String :=
  (ix.views.filter fun v => v.deletedAt.all fun t => after < t).filterMap (·.viewSha256)

def softDeleteViewsForRaw (rawSha : String) (deletedAt : DateTime) : Index :=
  { ix with
    views := updateWhere (fun v => v.rawSha256 = rawSha && v.deletedAt.isNone) (fun v => { v with deletedAt := some deletedAt }) ix.views }

def purgeableViews (before : DateTime) : List ViewRecord := ix.views.filter fun v => v.deletedAt.any fun t => t ≤ before

def hardDeleteView (view : ViewRecord) : Index :=
  { ix with views := deleteWhere (fun v => sameView view v && v.deletedAt.isSome) ix.views }

def setAlias (name sha : String) (now : DateTime) (expiresAt : Option DateTime) : Index :=
  { ix with aliases := upsertRow AliasRecord.name ⟨name, sha, now, expiresAt⟩ ix.aliases }

def resolveAlias (name : String) (now : DateTime) : Option AliasRecord :=
  ix.aliases.find? fun a => a.name = name && a.liveAt now

def deleteAlias (name : String) : Index := { ix with aliases := deleteWhere (fun a => a.name = name) ix.aliases }

def activeAliasShas (now : DateTime) : List String := (ix.aliases.filter fun a => a.liveAt now).map (·.sha256)

def hardDeleteExpiredAliases (before : DateTime) : Index :=
  { ix with aliases := deleteWhere (fun a => a.expiresAt.any fun t => t ≤ before) ix.aliases }

def addReference (ownerType ownerId sha : String) (now : DateTime) : Index :=
  { ix with
    edges :=
      if ix.edges.any fun e => e.ownerType = ownerType && e.ownerId = ownerId && e.sha256 = sha then
        updateWhere (fun e => e.ownerType = ownerType && e.ownerId = ownerId && e.sha256 = sha)
          (fun e => { e with deletedAt := none, createdAt := now }) ix.edges
      else ix.edges ++ [⟨ownerType, ownerId, sha, now, none⟩] }

def removeReference (ownerType ownerId sha : String) (now : DateTime) : Index :=
  { ix with
    edges := updateWhere
      (fun e => e.ownerType = ownerType && e.ownerId = ownerId && e.sha256 = sha && e.deletedAt.isNone)
      (fun e => { e with deletedAt := some now }) ix.edges }

def activeReferenceShas : List String := (ix.edges.filter fun e => e.deletedAt.isNone).map (·.sha256)

def hardDeleteReferenceTombstones (before : DateTime) : Index :=
  { ix with edges := deleteWhere (fun e => e.deletedAt.any fun t => t ≤ before) ix.edges }

def getBlob (sha : String) : Option Bytes := (lookup Blob.sha256 sha ix.blobs).map (·.data)

def blobExists (sha : String) : Bool := (ix.getBlob sha).isSome

def putBytes (sha : String) (data : Bytes) : Index :=
  if ix.blobExists sha then ix else { ix with blobs := ix.blobs ++ [⟨sha, data⟩] }

def deleteBlob (sha : String) : Index := { ix with blobs := deleteWhere (fun b => b.sha256 = sha) ix.blobs }

def record (event : Event) : Index := { ix with history := ix.history ++ [event] }

def Active (sha : String) : Prop := ∃ row ∈ ix.artifacts, row.sha256 = sha ∧ row.isActive = true

/-- An edge or an alias of the time refers to the artifact. -/
def Rooted (now : DateTime) (sha : String) : Prop := sha ∈ ix.activeReferenceShas ∨ sha ∈ ix.activeAliasShas now

instance (sha : String) : Decidable (ix.Active sha) := inferInstanceAs (Decidable (∃ row ∈ ix.artifacts, _))

instance (now : DateTime) (sha : String) : Decidable (ix.Rooted now sha) := inferInstanceAs (Decidable (_ ∨ _))

variable {ix}

theorem getActive_eq_some {sha : String} {row : ArtifactMeta} (h : ix.getActive sha = some row) :
    row ∈ ix.artifacts ∧ row.sha256 = sha ∧ row.isActive = true := by
  obtain ⟨hget, hactive⟩ := Option.filter_eq_some_iff.mp h
  obtain ⟨hmem, hsha⟩ := lookup_some hget
  exact ⟨hmem, hsha, hactive⟩

theorem active_of_getActive {sha : String} (h : (ix.getActive sha).isSome = true) : ix.Active sha := by
  obtain ⟨row, hrow⟩ := Option.isSome_iff_exists.mp h
  exact ⟨row, getActive_eq_some hrow⟩

theorem Active.getActive {sha : String} (h : ix.Active sha) (hunique : UniqueKey ArtifactMeta.sha256 ix.artifacts) :
    ∃ row, ix.getActive sha = some row := by
  obtain ⟨row, hmem, hsha, hactive⟩ := h
  refine ⟨row, Option.filter_eq_some_iff.mpr ⟨?_, hactive⟩⟩
  exact hunique.lookup_eq_some_iff.mpr ⟨hmem, hsha⟩

theorem active_upsertArtifact {row : ArtifactMeta} (hrow : row.isActive = true) {sha : String} :
    (ix.upsertArtifact row).Active sha ↔ sha = row.sha256 ∨ ix.Active sha := by
  rw [upsertArtifact]
  split
  · next hany =>
    obtain ⟨other, hother, hsame⟩ := List.any_eq_true.mp hany
    constructor
    · rintro ⟨r, hr, hsha, hactive⟩
      obtain ⟨s, hs, rfl⟩ := mem_updateWhere.mp hr
      by_cases hmatch : s.sha256 = row.sha256
      · rw [if_pos (decide_eq_true hmatch)] at hsha
        exact .inl (hsha.symm.trans hmatch)
      · rw [if_neg (by simpa using hmatch)] at hsha hactive
        exact .inr ⟨s, hs, hsha, hactive⟩
    · rintro (rfl | ⟨r, hr, hsha, hactive⟩)
      · refine ⟨_, mem_updateWhere.mpr ⟨other, hother, rfl⟩, ?_⟩
        rw [if_pos hsame]
        exact ⟨of_decide_eq_true hsame, hrow⟩
      · refine ⟨_, mem_updateWhere.mpr ⟨r, hr, rfl⟩, ?_⟩
        split
        · exact ⟨hsha, hrow⟩
        · exact ⟨hsha, hactive⟩
  · constructor
    · rintro ⟨r, hr, hsha, hactive⟩
      rcases List.mem_append.mp hr with hold | hlast
      · exact .inr ⟨r, hold, hsha, hactive⟩
      · rw [List.mem_singleton.mp hlast] at hsha
        exact .inl hsha.symm
    · rintro (rfl | ⟨r, hr, hsha, hactive⟩)
      · exact ⟨row, List.mem_append_right _ (List.mem_singleton_self row), rfl, hrow⟩
      · exact ⟨r, List.mem_append_left _ hr, hsha, hactive⟩

theorem active_softDeleteArtifacts {shas : List String} {deletedAt : DateTime} {sha : String} :
    (ix.softDeleteArtifacts shas deletedAt).Active sha ↔ ix.Active sha ∧ ¬ (sha ∈ shas ∧ strip sha ≠ "") := by
  constructor
  · rintro ⟨r, hr, hsha, hactive⟩
    obtain ⟨s, hs, rfl⟩ := mem_updateWhere.mp hr
    split at hsha
    · next hmatch =>
      rw [if_pos hmatch] at hactive
      cases hactive
    · next hmatch =>
      rw [if_neg hmatch] at hactive
      refine ⟨⟨s, hs, hsha, hactive⟩, ?_⟩
      rintro ⟨hmem, hne⟩
      refine hmatch ?_
      rw [hsha]
      simp [hmem, hne, hactive]
  · rintro ⟨⟨r, hr, hsha, hactive⟩, hnot⟩
    refine ⟨_, mem_updateWhere.mpr ⟨r, hr, rfl⟩, ?_⟩
    rw [if_neg]
    · exact ⟨hsha, hactive⟩
    · intro hmatch
      rw [hsha] at hmatch
      simp only [Bool.and_eq_true, decide_eq_true_eq] at hmatch
      exact hnot hmatch.1

theorem active_hardDeleteArtifact {removed sha : String} : (ix.hardDeleteArtifact removed).Active sha ↔ ix.Active sha := by
  constructor
  · rintro ⟨r, hr, hsha, hactive⟩
    exact ⟨r, (mem_deleteWhere.mp hr).1, hsha, hactive⟩
  · rintro ⟨r, hr, hsha, hactive⟩
    refine ⟨r, mem_deleteWhere.mpr ⟨hr, ?_⟩, hsha, hactive⟩
    rw [ArtifactMeta.isActive, Option.isNone_iff_eq_none] at hactive
    simp [hactive]

theorem uniqueKey_upsertArtifact (h : UniqueKey ArtifactMeta.sha256 ix.artifacts) (row : ArtifactMeta) :
    UniqueKey ArtifactMeta.sha256 (ix.upsertArtifact row).artifacts := by
  rw [upsertArtifact]
  split
  · exact h.updateWhere fun _ _ => rfl
  · next hnone =>
    refine h.append_singleton ?_
    intro r hr hsha
    exact hnone (List.any_eq_true.mpr ⟨r, hr, decide_eq_true hsha⟩)

theorem uniqueKey_softDeleteArtifacts (h : UniqueKey ArtifactMeta.sha256 ix.artifacts) (shas : List String) (deletedAt : DateTime) :
    UniqueKey ArtifactMeta.sha256 (ix.softDeleteArtifacts shas deletedAt).artifacts := h.updateWhere fun _ _ => rfl

theorem mem_activeReferenceShas {sha : String} : sha ∈ ix.activeReferenceShas ↔ ∃ e ∈ ix.edges, e.deletedAt = none ∧ e.sha256 = sha := by
  simp [activeReferenceShas, and_assoc]

theorem mem_activeAliasShas {now : DateTime} {sha : String} :
    sha ∈ ix.activeAliasShas now ↔ ∃ a ∈ ix.aliases, a.liveAt now = true ∧ a.sha256 = sha := by
  simp [activeAliasShas, and_assoc]

theorem liveAt_mono {a : AliasRecord} {now later : DateTime} (hle : now ≤ later) (h : a.liveAt later = true) : a.liveAt now = true := by
  rw [AliasRecord.liveAt, Option.all_eq_true] at h ⊢
  intro t ht
  exact decide_eq_true (hle.trans_lt (of_decide_eq_true (h t ht)))

theorem Rooted.mono {now later : DateTime} {sha : String} (hle : now ≤ later) (h : ix.Rooted later sha) : ix.Rooted now sha := by
  refine h.imp_right fun halias => ?_
  obtain ⟨a, ha, hlive, hsha⟩ := mem_activeAliasShas.mp halias
  exact mem_activeAliasShas.mpr ⟨a, ha, liveAt_mono hle hlive, hsha⟩

theorem mem_of_getBlob {sha : String} {data : Bytes} (h : ix.getBlob sha = some data) : ⟨sha, data⟩ ∈ ix.blobs := by
  obtain ⟨b, hb, rfl⟩ := Option.map_eq_some_iff.mp h
  obtain ⟨hmem, rfl⟩ := lookup_some hb
  exact hmem

theorem blobExists_iff {sha : String} : ix.blobExists sha = true ↔ ∃ b ∈ ix.blobs, b.sha256 = sha := by
  rw [blobExists, getBlob, Option.isSome_map, lookup, List.find?_isSome]
  simp

end Index

end OpenMinion.ArtifactIndex
