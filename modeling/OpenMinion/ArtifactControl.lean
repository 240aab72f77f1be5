import OpenMinion.ArtifactIndex

/-!
# The artifact controller

Ingest, views, aliases, reference edges, and the two phases of collection: `gc` marks the rows that nothing refers to,
`purge` removes those marked long enough. A `Clock` gives the readings of an operation in order.
-/
namespace OpenMinion.ArtifactControl
open ArtifactIndex IsoTimestamps JsonValues KeyedTables PythonText

structure Clock where
  read : ℕ → DateTime
  mono : Monotone read
  /-- A time that no reading exceeds. -/
  finish : DateTime
  le_finish : ∀ i, read i ≤ finish

def Clock.at (t : DateTime) : Clock := ⟨fun _ => t, monotone_const, t, fun _ => le_refl t⟩

inductive ErrorCode where
  | invalidArgument
  | notFound
  | alreadyExists
  | policyDenied
  | payloadTooLarge
  | viewTooLarge
  | unsupportedView
  /-- `OverflowError` of a date. -/
  | overflow
  deriving DecidableEq

structure ArtifactCtlError where
  code : ErrorCode
  message : String
  deriving DecidableEq

structure ArtifactCtlConfig where
  maxIngestBytes : ℕ := 104857600
  storeOriginalPath : Bool := false
  expireDefaultDays : ℕ := 30
  deleteViewsFirst : Bool := true

/-- What is ingested; `mime` and `encoding` are those that were determined for the data. -/
structure Ingest where
  data : Bytes
  mime : String := "application/octet-stream"
  encoding : Option String := none
  originalName : Option String := none
  originalPath : Option String := none
  label : Option String := none
  metadata : Dict := []
  sessionId : Option String := none
  traceId : Option String := none
  agentId : Option String := none
  isOpaque : Bool := false

/-- A view that is asked for: its type, the hash of the policy and the settings, and the
generator with these settings. -/
structure ViewRequest where
  viewType : String
  policyHash : String
  generate : ArtifactMeta → Bytes → Except ArtifactCtlError (Bytes × String)

section Control

variable (cfg : ArtifactCtlConfig) (sha256 : Bytes → String)

def parseRefOrSha (text : String) : Option String :=
  let raw := (strip text).toList
  let reference := "artifact://sha256/".toList
  let candidate := if reference.isPrefixOf raw then raw.drop reference.length else raw
  let lowered := candidate.map Char.toLower
  if candidate.length = 64 && lowered.all (fun c => c ∈ "0123456789abcdef".toList) then some (String.ofList lowered) else none

def resolveSha (ix : Index) (text : String) (now : DateTime) : Except ArtifactCtlError String :=
  if strip text = "" then .error ⟨.invalidArgument, "Expected artifact ref, sha256, or alias"⟩
  else
    match parseRefOrSha (strip text) with
    | some sha => .ok sha
    | none =>
      match ix.resolveAlias (strip text) now with
      | some row => .ok row.sha256
      | none => .error ⟨.notFound, "Unknown artifact ref/sha/alias: " ++ text⟩

def resolveActiveSha (ix : Index) (text : String) (now : DateTime) : Except ArtifactCtlError String :=
  match resolveSha ix text now with
  | .error e => .error e
  | .ok sha => if (ix.getActive sha).isSome then .ok sha else .error ⟨.notFound, "Artifact not found: " ++ text⟩

def readBytes (ix : Index) (sha : String) (sessionId : Option String) : Except ArtifactCtlError Bytes :=
  match ix.getActive sha with
  | none => .error ⟨.notFound, "Artifact not found: " ++ sha⟩
  | some row =>
    if row.isOpaque && (sessionId.getD "" = "" || sessionId ≠ row.sessionId) then
      .error ⟨.policyDenied, "Opaque input belongs to another session"⟩
    else
      match ix.getBlob sha with
      | none => .error ⟨.notFound, "Blob is missing for artifact: " ++ sha⟩
      | some data => .ok data

/-- `_check_ingest_policy`. -/
def policyDiffers (ix : Index) (sha : String) (isOpaque : Bool) : Bool :=
  (ix.getArtifact sha).any fun row => row.isOpaque ≠ isOpaque

def policyError : ArtifactCtlError := ⟨.policyDenied, "Existing artifact has a different input policy"⟩

def ingestRow (i : Ingest) (now : DateTime) : ArtifactMeta where
  sha256 := sha256 i.data
  sizeBytes := i.data.length
  mime := i.mime
  createdAt := now
  originalName := i.originalName
  originalPath := if cfg.storeOriginalPath then i.originalPath else none
  label := i.label
  sessionId := i.sessionId
  traceId := i.traceId
  agentId := i.agentId
  encoding := i.encoding
  metadata := if i.isOpaque then Dict.set i.metadata "opaque" (.bool true) else i.metadata

def storeData (ix : Index) (i : Ingest) (now : DateTime) : Index :=
  ((ix.putBytes (sha256 i.data) i.data).upsertArtifact (ingestRow cfg sha256 i now)).record (.ingested i.data now)

/-- `_ingest_bytes_internal` without its views. -/
def ingestInternal (ix : Index) (i : Ingest) (now : DateTime) : Except ArtifactCtlError ArtifactMeta × Index :=
  if cfg.maxIngestBytes < i.data.length then
    (.error ⟨.payloadTooLarge, "Artifact payload exceeds configured limit for " ++
      (if i.originalName.getD "" = "" then "bytes" else i.originalName.getD "")⟩, ix)
  else if policyDiffers ix (sha256 i.data) i.isOpaque then (.error policyError, ix)
  else if Dict.has i.metadata "opaque" then (.error ⟨.invalidArgument, "Opaque policy is not caller metadata"⟩, ix)
  else
    let after := storeData cfg sha256 ix i now
    if policyDiffers after (sha256 i.data) i.isOpaque then (.error policyError, after)
    else
      match after.getArtifact (sha256 i.data) with
      | none => (.error ⟨.notFound, "Artifact not found: " ++ sha256 i.data⟩, after)
      | some row => (.ok row, after)

def viewIngest (raw : ArtifactMeta) (viewType : String) (payload : Bytes) (mime : String) : Ingest where
  data := payload
  mime := mime
  originalName := some (raw.sha256 ++ "." ++ viewType ++ (if mime = "application/json" then ".json" else ".txt"))
  originalPath := some (raw.sha256 ++ "." ++ viewType ++ (if mime = "application/json" then ".json" else ".txt"))
  label := some ("view:" ++ viewType ++ ":" ++ String.ofList (raw.sha256.toList.take 12))
  metadata := [("derived_from", .str raw.sha256), ("view_type", .str viewType), ("schema_version", .str "v1")]
  sessionId := raw.sessionId
  traceId := raw.traceId
  agentId := raw.agentId

def storedView (ix : Index) (rawSha viewType policyHash : String) : Option ArtifactMeta :=
  (ix.getView rawSha viewType "v1" policyHash).bind fun view =>
    view.viewSha256.bind fun sha =>
      if sha = "" then none else (ix.getActive sha).filter fun _ => ix.blobExists sha

def viewRow (raw : ArtifactMeta) (viewType policyHash mime : String) (view : ArtifactMeta) : ViewRecord where
  rawSha256 := raw.sha256
  viewType := viewType
  policyHash := policyHash
  viewSha256 := some view.sha256
  mime := mime
  sizeBytes := view.sizeBytes
  createdAt := view.createdAt

def ensureView (ix : Index) (rawSha : String) (r : ViewRequest) (now : DateTime) : Except ArtifactCtlError ArtifactMeta × Index :=
  let viewType := (strip r.viewType).toLower
  if viewType ∉ ["digest", "text", "json", "table"] then
    (.error ⟨.invalidArgument, "Unsupported view type: " ++ r.viewType⟩, ix)
  else
    match ix.getActive rawSha with
    | none => (.error ⟨.notFound, "Artifact not found: " ++ rawSha⟩, ix)
    | some raw =>
      if raw.isOpaque then (.error ⟨.policyDenied, "Opaque inputs have no content views"⟩, ix)
      else
        match storedView ix rawSha viewType r.policyHash with
        | some view => (.ok view, ix)
        | none =>
          match readBytes ix rawSha none with
          | .error e => (.error e, ix)
          | .ok data =>
            match r.generate raw data with
            | .error e => (.error e, ix)
            | .ok (payload, mime) =>
              match ingestInternal cfg sha256 ix (viewIngest raw viewType payload mime) now with
              | (.error e, after) => (.error e, after)
              | (.ok view, after) => (.ok view, after.upsertView (viewRow raw viewType r.policyHash mime view))

/-- `_auto_generate_views`: an error of a view is logged. -/
def autoGenerateViews (sha : String) (c : Clock) : ℕ → List ViewRequest → Index → Index
  | _, [], ix => ix
  | k, r :: rs, ix => autoGenerateViews sha c (k + 1) rs (ensureView cfg sha256 ix sha r (c.read k)).2

def ingestBytes (ix : Index) (i : Ingest) (auto : List ViewRequest) (c : Clock) : Except ArtifactCtlError ArtifactMeta × Index :=
  if i.isOpaque && i.sessionId.getD "" = "" then (.error ⟨.invalidArgument, "Opaque inputs require a session"⟩, ix)
  else
    match ingestInternal cfg sha256 ix i (c.read 0) with
    | (.error e, after) => (.error e, after)
    | (.ok row, after) => (.ok row, if i.isOpaque then after else autoGenerateViews cfg sha256 row.sha256 c 1 auto after)

/-- `alias_set`; `expiresAt` is the normalized time. -/
def aliasSet (ix : Index) (name refOrSha : String) (overwrite : Bool) (expiresAt : Option DateTime) (c : Clock) :
    Except ArtifactCtlError Unit × Index :=
  if strip name = "" then (.error ⟨.invalidArgument, "Alias cannot be empty"⟩, ix)
  else if (ix.resolveAlias (strip name) (c.read 0)).isSome && !overwrite then
    (.error ⟨.alreadyExists, "Alias already exists: " ++ name⟩, ix)
  else
    match resolveActiveSha ix refOrSha (c.read 1) with
    | .error e => (.error e, ix)
    | .ok sha =>
      if expiresAt.isNone && 0 < cfg.expireDefaultDays then
        match (c.read 2).addMicros (microsPerDay * cfg.expireDefaultDays : ℕ) with
        | none => (.error ⟨.overflow, "date value out of range"⟩, ix)
        | some t => (.ok (), ix.setAlias (strip name) sha (c.read 3) (some t))
      else (.ok (), ix.setAlias (strip name) sha (c.read 3) expiresAt)

def validOwnerTypes : List String := ["session", "memory", "alias", "collection", "a2a"]

def refAdd (ix : Index) (ownerType ownerId refOrSha : String) (c : Clock) : Except ArtifactCtlError Unit × Index :=
  if ownerType ∉ validOwnerTypes then (.error ⟨.invalidArgument, "Invalid owner_type: " ++ ownerType⟩, ix)
  else if strip ownerId = "" then (.error ⟨.invalidArgument, "owner_id cannot be blank"⟩, ix)
  else
    match resolveActiveSha ix refOrSha (c.read 0) with
    | .error e => (.error e, ix)
    | .ok sha => (.ok (), ix.addReference ownerType ownerId sha (c.read 1))

def refRemove (ix : Index) (ownerType ownerId refOrSha : String) (c : Clock) : Except ArtifactCtlError Unit × Index :=
  if ownerType ∉ validOwnerTypes then (.error ⟨.invalidArgument, "Invalid owner_type: " ++ ownerType⟩, ix)
  else
    match resolveSha ix refOrSha (c.read 0) with
    | .error e => (.error e, ix)
    | .ok sha => (.ok (), ix.removeReference ownerType ownerId sha (c.read 1))

structure GCReport where
  roots : ℕ
  protectedCount : ℕ
  eligible : ℕ
  markedDeleted : ℕ
  candidates : List String
  deriving DecidableEq

/-- `_soft_delete_derived_views`: the index after it, and the artifacts that it marks. -/
def softDeleteDerivedViews (ix : Index) (shas : List String) (deletedAt now : DateTime) : List String × Index :=
  let candidates := ix.viewShas shas
  let hidden := shas.foldl (fun ix raw => ix.softDeleteViewsForRaw raw deletedAt) ix
  let protectedShas := hidden.activeReferenceShas ++ hidden.activeAliasShas now ++ hidden.activeViewShas
  let deletable := candidates.filter fun sha => sha ∉ protectedShas
  (deletable, hidden.softDeleteArtifacts deletable deletedAt)

/-- What `gc` protects: roots, recent artifacts, and the views of both. -/
def protectedFromGc (ix : Index) (since now : DateTime) : List String :=
  let kept := ix.activeReferenceShas ++ ix.activeAliasShas now ++ ix.recentArtifactShas since
  kept ++ ix.viewShas kept

def gc (ix : Index) (planOnly : Bool) (keepDays deleteAfterDays : ℕ) (c : Clock) : Except ArtifactCtlError GCReport × Index :=
  match cutoff (c.read 1) keepDays, cutoff (c.read 2) deleteAfterDays with
  | some since, some before =>
    let roots := ix.activeReferenceShas ++ ix.activeAliasShas (c.read 0)
    let protectedShas := protectedFromGc ix since (c.read 0)
    let eligible := ix.eligibleForGc before protectedShas
    let marks := !planOnly && !eligible.isEmpty
    let report : GCReport := ⟨roots.dedup.length, protectedShas.dedup.length, eligible.length,
      if marks then ix.markedCount eligible else 0, eligible⟩
    if marks then
      (.ok report, (softDeleteDerivedViews (ix.softDeleteArtifacts eligible (c.read 3)) eligible (c.read 3) (c.read 4)).2)
    else (.ok report, ix)
  | _, _ => (.error ⟨.overflow, "date value out of range"⟩, ix)

def delete (ix : Index) (refOrSha : String) (soft : Bool) (c : Clock) : Except ArtifactCtlError Unit × Index :=
  match resolveSha ix refOrSha (c.read 0) with
  | .error e => (.error e, ix)
  | .ok sha =>
    let (derived, hidden) := softDeleteDerivedViews ix [sha] (c.read 1) (c.read 2)
    let marked := if sha ∈ hidden.activeViewShas then hidden
      else
        let marked := hidden.softDeleteArtifacts [sha] (c.read 1)
        if soft then marked else marked.deleteBlob sha
    (.ok (), (if soft then marked else derived.foldl Index.deleteBlob marked).record (.deleted sha))

structure PurgeReport where
  purgedViews : ℕ
  purgedBlobs : ℕ
  missingFiles : ℕ
  deriving DecidableEq

structure BlobPurge where
  ix : Index
  handled : List String := []
  purged : ℕ := 0
  missing : ℕ := 0

/-- `_purge_blob_sha`, counted as its caller does. -/
def BlobPurge.remove (p : BlobPurge) (sha : String) : BlobPurge :=
  if sha ∈ p.handled then { p with purged := p.purged + 1 }
  else if p.ix.blobExists sha then { p with ix := p.ix.deleteBlob sha, handled := sha :: p.handled, purged := p.purged + 1 }
  else { p with handled := sha :: p.handled, missing := p.missing + 1 }

def purgeBlobs (ix : Index) (first second : List String) : BlobPurge × BlobPurge :=
  let one := first.foldl BlobPurge.remove { ix }
  (one, second.foldl BlobPurge.remove { one with purged := 0 })

/-- The view artifacts that `purge` marks. -/
def unprotectedViewShas (views : List ViewRecord) (protectedShas : List String) : List String :=
  (views.filterMap (·.viewSha256)).filter fun sha => sha ≠ "" && sha ∉ protectedShas

/-- The marks of `purge`: each view artifact is dated as its view. -/
def markPurgedViews (ix : Index) (views : List ViewRecord) (viewShas : List String) (now : DateTime) : Index :=
  views.foldl (fun ix view => match view.viewSha256 with
    | some sha => if sha ∈ viewShas then ix.softDeleteArtifacts [sha] (view.deletedAt.getD now) else ix
    | none => ix) ix

def purge (ix : Index) (graceDays : ℕ) (c : Clock) : Except ArtifactCtlError PurgeReport × Index :=
  -- a later reading has a cutoff when the first one has
  match cutoff (c.read 0) graceDays, cutoff (c.read 2) graceDays, cutoff (c.read 4) graceDays, cutoff (c.read 5) graceDays,
      cutoff (c.read 6) graceDays with
  | some viewsBefore, some retainedAfter, some artifactsBefore, some aliasesBefore, some edgesBefore =>
    let views := ix.purgeableViews viewsBefore
    let protectedShas := ix.activeReferenceShas ++ ix.activeAliasShas (c.read 1) ++ ix.retainedViewShas retainedAfter
    let viewShas := unprotectedViewShas views protectedShas
    let marked := markPurgedViews ix views viewShas (c.read 3)
    let artifacts := (marked.purgeableArtifacts artifactsBefore).filter fun r => r.sha256 ∉ protectedShas
    let artifactShas := artifacts.map (·.sha256)
    let viewBlobs := (views.filterMap (·.viewSha256)).filter fun sha => sha ∈ viewShas && sha ∈ artifactShas
    let (one, two) := if cfg.deleteViewsFirst then purgeBlobs marked viewBlobs artifactShas else purgeBlobs marked artifactShas viewBlobs
    let report : PurgeReport :=
      ⟨if cfg.deleteViewsFirst then one.purged else two.purged, if cfg.deleteViewsFirst then two.purged else one.purged, two.missing⟩
    let withoutViews := views.foldl Index.hardDeleteView two.ix
    let withoutRows := artifactShas.foldl Index.hardDeleteArtifact withoutViews
    (.ok report, (withoutRows.hardDeleteExpiredAliases aliasesBefore).hardDeleteReferenceTombstones edgesBefore)
  | _, _, _, _, _ => (.error ⟨.overflow, "date value out of range"⟩, ix)

inductive Op where
  | ingestBytes (i : Ingest) (auto : List ViewRequest)
  | ensureView (refOrSha : String) (request : ViewRequest)
  | aliasSet (name refOrSha : String) (overwrite : Bool) (expiresAt : Option DateTime)
  | aliasDelete (name : String)
  | refAdd (ownerType ownerId refOrSha : String)
  | refRemove (ownerType ownerId refOrSha : String)
  | gc (planOnly : Bool) (keepDays deleteAfterDays : ℕ)
  | purge (graceDays : ℕ)
  | delete (refOrSha : String) (soft : Bool)

def Op.isDelete : Op → Bool
  | .delete _ _ => true
  | _ => false

def performOp (ix : Index) (c : Clock) : Op → Index
  | .ingestBytes i auto => (ingestBytes cfg sha256 ix i auto c).2
  | .ensureView refOrSha request =>
    match resolveSha ix refOrSha (c.read 0) with
    | .error _ => ix
    | .ok sha => (ensureView cfg sha256 ix sha request (c.read 1)).2
  | .aliasSet name refOrSha overwrite expiresAt => (aliasSet cfg ix name refOrSha overwrite expiresAt c).2
  | .aliasDelete name => ix.deleteAlias name
  | .refAdd ownerType ownerId refOrSha => (refAdd ix ownerType ownerId refOrSha c).2
  | .refRemove ownerType ownerId refOrSha => (refRemove ix ownerType ownerId refOrSha c).2
  | .gc planOnly keepDays deleteAfterDays => (gc ix planOnly keepDays deleteAfterDays c).2
  | .purge graceDays => (purge cfg ix graceDays c).2
  | .delete refOrSha soft => (delete ix refOrSha soft c).2

structure Action where
  op : Op
  clock : Clock

structure State where
  ix : Index := {}
  now : DateTime

def stepAction (s : State) (a : Action) : State := ⟨performOp cfg sha256 s.ix a.clock a.op, a.clock.finish⟩

def InOrder (s : State) (a : Action) : Prop := s.now ≤ a.clock.read 0

end Control

end OpenMinion.ArtifactControl
