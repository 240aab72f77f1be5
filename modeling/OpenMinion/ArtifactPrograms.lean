import OpenMinion.ArtifactControl
import OpenMinion.InterleavedThreads
import OpenMinion.StatementPrograms

/-!
# The artifact controller by statements

The operations of several clients on one store, cut where the code goes to the index, to the blobs or to the clock.
`soft_delete_artifacts` is a transaction and so one statement.
-/
namespace OpenMinion.ArtifactPrograms
open ArtifactControl ArtifactIndex InterleavedThreads IsoTimestamps JsonValues KeyedTables PythonText StatementPrograms

inductive Stmt where
  /-- A query, or a reading of the clock. -/
  | look
  /-- `active_reference_shas`. -/
  | readReferences
  /-- `purgeable_artifacts`. -/
  | readMarked
  /-- `get_artifact` of an artifact that is not deleted. -/
  | readActive (sha : String)
  /-- `blob_store.exists` of an ingest. -/
  | checkBlob (sha : String)
  | putBlob (sha : String) (data : Bytes)
  | upsertArtifact (row : ArtifactMeta)
  | upsertView (view : ViewRecord)
  | addReference (ownerType ownerId sha : String)
  | setAlias (name sha : String) (expiresAt : Option DateTime)
  | markArtifacts (shas : List String) (deletedAt : DateTime)
  | hideViews (rawSha : String) (deletedAt : DateTime)
  | deleteBlob (sha : String)
  | hardDeleteView (view : ViewRecord)
  | hardDeleteArtifact (sha : String)
  | hardDeleteAliases (before : DateTime)
  | hardDeleteEdges (before : DateTime)

inductive Note where
  | referenced (sha : String)
  | ingested (sha : String)
  | marked (sha : String)
  deriving DecidableEq

/-- The store, and the notes of all statements so far; no program reads the notes. -/
structure Shared where
  ix : Index
  notes : List Note := []

structure Reply where
  ix : Index
  now : DateTime
  noted : ℕ

def Stmt.write (now : DateTime) (ix : Index) : Stmt → Index
  | .putBlob sha data => ix.putBytes sha data
  | .upsertArtifact row => ix.upsertArtifact row
  | .upsertView view => ix.upsertView view
  | .addReference ownerType ownerId sha => ix.addReference ownerType ownerId sha now
  | .setAlias name sha expiresAt => ix.setAlias name sha now expiresAt
  | .markArtifacts shas deletedAt => ix.softDeleteArtifacts shas deletedAt
  | .hideViews rawSha deletedAt => ix.softDeleteViewsForRaw rawSha deletedAt
  | .deleteBlob sha => ix.deleteBlob sha
  | .hardDeleteView view => ix.hardDeleteView view
  | .hardDeleteArtifact sha => ix.hardDeleteArtifact sha
  | .hardDeleteAliases before => ix.hardDeleteExpiredAliases before
  | .hardDeleteEdges before => ix.hardDeleteReferenceTombstones before
  | _ => ix

def Stmt.notes : Stmt → List Note
  | .addReference _ _ sha => [.referenced sha]
  | .upsertArtifact row => [.ingested row.sha256]
  | .markArtifacts shas _ => shas.map .marked
  | _ => []

def Shared.apply (s : Shared) (now : DateTime) (c : Stmt) : Shared := ⟨c.write now s.ix, s.notes ++ c.notes⟩

def Shared.reply (s : Shared) (now : DateTime) : Reply := ⟨s.ix, now, s.notes.length⟩

abbrev Prog := Program Stmt Reply

def look {α : Type} (f : Index → DateTime → α) : Prog α := .perform .look fun r => f r.ix r.now

def isoNow : Prog DateTime := look fun _ now => now

def statement (c : Stmt) : Prog Unit := .perform c fun _ => ()

def activeReferenceShas : Prog (List String) := .perform .readReferences fun r => r.ix.activeReferenceShas

def activeAliasShas : Prog (List String) := look fun ix now => ix.activeAliasShas now

def getActive (sha : String) : Prog (Option ArtifactMeta) := .perform (.readActive sha) fun r => r.ix.getActive sha

def softDeleteArtifacts (shas : List String) (deletedAt : DateTime) : Prog ℕ :=
  if shas.all fun sha => strip sha = "" then pure 0
  else .perform (.markArtifacts shas deletedAt) fun r => r.ix.markedCount shas

section Programs

variable (cfg : ArtifactCtlConfig) (sha256 : Bytes → String)

def resolveSha (text : String) : Prog (Except ArtifactCtlError String) :=
  if strip text = "" then pure (.error ⟨.invalidArgument, "Expected artifact ref, sha256, or alias"⟩)
  else
    match parseRefOrSha (strip text) with
    | some sha => pure (.ok sha)
    | none => do
      match ← look fun ix now => ix.resolveAlias (strip text) now with
      | some row => pure (.ok row.sha256)
      | none => pure (.error ⟨.notFound, "Unknown artifact ref/sha/alias: " ++ text⟩)

def resolveActiveSha (text : String) : Prog (Except ArtifactCtlError String) := do
  match ← resolveSha text with
  | .error e => pure (.error e)
  | .ok sha =>
    match ← getActive sha with
    | some _ => pure (.ok sha)
    | none => pure (.error ⟨.notFound, "Artifact not found: " ++ text⟩)

def refAdd (ownerType ownerId refOrSha : String) : Prog (Except ArtifactCtlError Unit) :=
  if ownerType ∉ validOwnerTypes then pure (.error ⟨.invalidArgument, "Invalid owner_type: " ++ ownerType⟩)
  else if strip ownerId = "" then pure (.error ⟨.invalidArgument, "owner_id cannot be blank"⟩)
  else do
    match ← resolveActiveSha refOrSha with
    | .error e => pure (.error e)
    | .ok sha => do
      statement (.addReference ownerType ownerId sha)
      pure (.ok ())

def aliasSet (name refOrSha : String) (overwrite : Bool) (expiresAt : Option DateTime) : Prog (Except ArtifactCtlError Unit) :=
  if strip name = "" then pure (.error ⟨.invalidArgument, "Alias cannot be empty"⟩)
  else do
    let existing ← look fun ix now => ix.resolveAlias (strip name) now
    if existing.isSome && !overwrite then pure (.error ⟨.alreadyExists, "Alias already exists: " ++ name⟩)
    else
      match ← resolveActiveSha refOrSha with
      | .error e => pure (.error e)
      | .ok sha =>
        if expiresAt.isNone && 0 < cfg.expireDefaultDays then do
          let now ← isoNow
          match now.addMicros (microsPerDay * cfg.expireDefaultDays : ℕ) with
          | none => pure (.error ⟨.overflow, "date value out of range"⟩)
          | some t => do
            statement (.setAlias (strip name) sha (some t))
            pure (.ok ())
        else do
          statement (.setAlias (strip name) sha expiresAt)
          pure (.ok ())

/-- `_ingest_bytes_internal` up to its second check of the policy. -/
def storeData (i : Ingest) : Prog (Except ArtifactCtlError Unit) :=
  if cfg.maxIngestBytes < i.data.length then
    pure (.error ⟨.payloadTooLarge, "Artifact payload exceeds configured limit for " ++
      (if i.originalName.getD "" = "" then "bytes" else i.originalName.getD "")⟩)
  else do
    if ← look fun ix _ => policyDiffers ix (sha256 i.data) i.isOpaque then pure (.error policyError)
    else if Dict.has i.metadata "opaque" then pure (.error ⟨.invalidArgument, "Opaque policy is not caller metadata"⟩)
    else do
      let found ← Program.perform (.checkBlob (sha256 i.data)) fun r => r.ix.blobExists (sha256 i.data)
      if found then pure () else statement (.putBlob (sha256 i.data) i.data)
      let now ← isoNow
      statement (.upsertArtifact (ingestRow cfg sha256 i now))
      if ← look fun ix _ => policyDiffers ix (sha256 i.data) i.isOpaque then pure (.error policyError)
      else pure (.ok ())

/-- `_ingest_bytes_internal` with the views that it generates. -/
def ingestInternal (i : Ingest) (views : Prog Unit) : Prog (Except ArtifactCtlError ArtifactMeta) := do
  match ← storeData cfg sha256 i with
  | .error e => pure (.error e)
  | .ok () => do
    views
    match ← look fun ix _ => ix.getArtifact (sha256 i.data) with
    | none => pure (.error ⟨.notFound, "Artifact not found: " ++ sha256 i.data⟩)
    | some row => pure (.ok row)

def storedView (rawSha viewType policyHash : String) : Prog (Option ArtifactMeta) := do
  match ← look fun ix _ => (ix.getView rawSha viewType "v1" policyHash).bind (·.viewSha256) with
  | none => pure none
  | some sha =>
    if sha = "" then pure none
    else do
      match ← look fun ix _ => ix.getActive sha with
      | none => pure none
      | some view => do
        if ← look fun ix _ => ix.blobExists sha then pure (some view) else pure none

def readBytes (sha : String) : Prog (Except ArtifactCtlError Bytes) := do
  match ← look fun ix _ => ix.getActive sha with
  | none => pure (.error ⟨.notFound, "Artifact not found: " ++ sha⟩)
  | some _ => do
    match ← look fun ix _ => ix.getArtifact sha with
    | none => pure (.error ⟨.notFound, "Artifact not found: " ++ sha⟩)
    | some row =>
      if row.isOpaque then pure (.error ⟨.policyDenied, "Opaque input belongs to another session"⟩)
      else do
        if ← look fun ix _ => ix.blobExists sha then
          match ← look fun ix _ => ix.getBlob sha with
          | none => pure (.error ⟨.notFound, "Blob is missing for artifact: " ++ sha⟩)
          | some data => pure (.ok data)
        else pure (.error ⟨.notFound, "Blob is missing for artifact: " ++ sha⟩)

def ensureView (rawSha : String) (r : ViewRequest) : Prog (Except ArtifactCtlError ArtifactMeta) :=
  let viewType := (strip r.viewType).toLower
  if viewType ∉ ["digest", "text", "json", "table"] then
    pure (.error ⟨.invalidArgument, "Unsupported view type: " ++ r.viewType⟩)
  else do
    match ← look fun ix _ => ix.getActive rawSha with
    | none => pure (.error ⟨.notFound, "Artifact not found: " ++ rawSha⟩)
    | some raw =>
      if raw.isOpaque then pure (.error ⟨.policyDenied, "Opaque inputs have no content views"⟩)
      else do
        match ← storedView rawSha viewType r.policyHash with
        | some view => pure (.ok view)
        | none => do
          match ← readBytes rawSha with
          | .error e => pure (.error e)
          | .ok data =>
            match r.generate raw data with
            | .error e => pure (.error e)
            | .ok (payload, mime) => do
              match ← ingestInternal cfg sha256 (viewIngest raw viewType payload mime) (pure ()) with
              | .error e => pure (.error e)
              | .ok view => do
                statement (.upsertView (viewRow raw viewType r.policyHash mime view))
                pure (.ok view)

def autoGenerateViews (sha : String) : List ViewRequest → Prog Unit
  | [] => pure ()
  | r :: rs => do
    let _ ← ensureView cfg sha256 sha r
    autoGenerateViews sha rs

def ingestBytes (i : Ingest) (auto : List ViewRequest) : Prog (Except ArtifactCtlError ArtifactMeta) :=
  if i.isOpaque && i.sessionId.getD "" = "" then pure (.error ⟨.invalidArgument, "Opaque inputs require a session"⟩)
  else ingestInternal cfg sha256 i (if i.isOpaque then pure () else autoGenerateViews cfg sha256 (sha256 i.data) auto)

def viewShas (rawShas : List String) : Prog (List String) := do
  let listed ← Program.mapList (fun raw => look fun ix _ => (ix.listViews raw).filterMap (·.viewSha256)) rawShas
  pure listed.flatten

def softDeleteDerivedViews (shas : List String) (deletedAt : DateTime) : Prog (List String) := do
  let candidates ← viewShas shas
  let _ ← Program.mapList (fun raw => statement (.hideViews raw deletedAt)) shas
  let references ← activeReferenceShas
  let aliases ← activeAliasShas
  let views ← look fun ix _ => ix.activeViewShas
  let deletable := candidates.filter fun sha => sha ∉ references ++ aliases ++ views
  let _ ← softDeleteArtifacts deletable deletedAt
  pure deletable

def overflowError : ArtifactCtlError := ⟨.overflow, "date value out of range"⟩

def gc (planOnly : Bool) (keepDays deleteAfterDays : ℕ) : Prog (Except ArtifactCtlError GCReport) := do
  let references ← activeReferenceShas
  let aliases ← activeAliasShas
  match ← look fun ix now => (cutoff now keepDays).map ix.recentArtifactShas with
  | none => pure (.error overflowError)
  | some recent => do
    let roots := references ++ aliases
    let views ← viewShas (roots ++ recent)
    let protectedShas := roots ++ recent ++ views
    match ← look fun ix now => (cutoff now deleteAfterDays).map fun before => ix.eligibleForGc before protectedShas with
    | none => pure (.error overflowError)
    | some eligible =>
      if !planOnly && !eligible.isEmpty then do
        let now ← isoNow
        let marked ← softDeleteArtifacts eligible now
        let _ ← softDeleteDerivedViews eligible now
        pure (.ok ⟨roots.dedup.length, protectedShas.dedup.length, eligible.length, marked, eligible⟩)
      else pure (.ok ⟨roots.dedup.length, protectedShas.dedup.length, eligible.length, 0, eligible⟩)

structure BlobCounts where
  handled : List String := []
  purged : ℕ := 0
  missing : ℕ := 0

/-- `_purge_blob_sha`, counted as its caller does. -/
def purgeBlob (n : BlobCounts) (sha : String) : Prog BlobCounts :=
  if sha ∈ n.handled then pure { n with purged := n.purged + 1 }
  else do
    if ← look fun ix _ => ix.blobExists sha then do
      statement (.deleteBlob sha)
      pure { n with handled := sha :: n.handled, purged := n.purged + 1 }
    else pure { n with handled := sha :: n.handled, missing := n.missing + 1 }

def purgeBlobs (first second : List String) : Prog (BlobCounts × BlobCounts) := do
  let one ← Program.foldList purgeBlob {} first
  let two ← Program.foldList purgeBlob { one with purged := 0 } second
  pure (one, two)

def markPurgedView (viewShas : List String) (view : ViewRecord) : Prog Unit :=
  match view.viewSha256 with
  | some sha =>
    if sha ∈ viewShas then do
      let deletedAt ← match view.deletedAt with
        | some t => pure t
        | none => isoNow
      let _ ← softDeleteArtifacts [sha] deletedAt
      pure ()
    else pure ()
  | none => pure ()

def purgeRows (graceDays : ℕ) (views : List ViewRecord) (artifactShas : List String) (report : PurgeReport) :
    Prog (Except ArtifactCtlError PurgeReport) := do
  let _ ← Program.mapList (fun view => statement (.hardDeleteView view)) views
  let _ ← Program.mapList (fun sha => statement (.hardDeleteArtifact sha)) artifactShas
  match ← look fun _ now => cutoff now graceDays with
  | none => pure (.error overflowError)
  | some aliasesBefore => do
    statement (.hardDeleteAliases aliasesBefore)
    match ← look fun _ now => cutoff now graceDays with
    | none => pure (.error overflowError)
    | some edgesBefore => do
      statement (.hardDeleteEdges edgesBefore)
      pure (.ok report)

def purge (graceDays : ℕ) : Prog (Except ArtifactCtlError PurgeReport) := do
  match ← look fun ix now => (cutoff now graceDays).map ix.purgeableViews with
  | none => pure (.error overflowError)
  | some views => do
    let references ← activeReferenceShas
    let aliases ← activeAliasShas
    match ← look fun ix now => (cutoff now graceDays).map ix.retainedViewShas with
    | none => pure (.error overflowError)
    | some retained => do
      let protectedShas := references ++ aliases ++ retained
      let viewShas := unprotectedViewShas views protectedShas
      let _ ← Program.mapList (markPurgedView viewShas) views
      match ← Program.perform .readMarked fun r => (cutoff r.now graceDays).map r.ix.purgeableArtifacts with
      | none => pure (.error overflowError)
      | some marked => do
        let artifactShas := (marked.filter fun r => r.sha256 ∉ protectedShas).map (·.sha256)
        let viewBlobs := (views.filterMap (·.viewSha256)).filter fun sha => sha ∈ viewShas && sha ∈ artifactShas
        let (one, two) ← if cfg.deleteViewsFirst then purgeBlobs viewBlobs artifactShas else purgeBlobs artifactShas viewBlobs
        purgeRows graceDays views artifactShas ⟨if cfg.deleteViewsFirst then one.purged else two.purged,
          if cfg.deleteViewsFirst then two.purged else one.purged, two.missing⟩

inductive Op where
  | gc (planOnly : Bool) (keepDays deleteAfterDays : ℕ)
  | purge (graceDays : ℕ)
  | refAdd (ownerType ownerId refOrSha : String)
  | aliasSet (name refOrSha : String) (overwrite : Bool) (expiresAt : Option DateTime)
  | ingestBytes (i : Ingest) (auto : List ViewRequest)

inductive Result where
  /-- No operation so far. -/
  | idle
  | collected (report : Except ArtifactCtlError GCReport)
  | purged (report : Except ArtifactCtlError PurgeReport)
  | returned (result : Except ArtifactCtlError Unit)
  | ingested (result : Except ArtifactCtlError ArtifactMeta)

def program : Op → Prog Result
  | .gc planOnly keepDays deleteAfterDays => do return .collected (← gc planOnly keepDays deleteAfterDays)
  | .purge graceDays => do return .purged (← purge cfg graceDays)
  | .refAdd ownerType ownerId refOrSha => do return .returned (← refAdd ownerType ownerId refOrSha)
  | .aliasSet name refOrSha overwrite expiresAt => do return .returned (← aliasSet cfg name refOrSha overwrite expiresAt)
  | .ingestBytes i auto => do return .ingested (← ingestBytes cfg sha256 i auto)

end Programs

end OpenMinion.ArtifactPrograms
