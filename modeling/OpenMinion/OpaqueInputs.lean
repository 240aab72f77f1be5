import OpenMinion.ArtifactPrograms
import OpenMinion.ArtifactRetention

/-!
# Opaque inputs

Clients that ingest, read and ask for views in any interleaving. Equal inputs of several sessions become one artifact
of the first one's policy and session; what is opaque is read by that session alone.
-/
namespace OpenMinion.OpaqueInputs
open ArtifactControl (ArtifactCtlConfig ArtifactCtlError Ingest ViewRequest ingestRow parseRefOrSha viewIngest)
open ArtifactIndex ArtifactPrograms ArtifactRetention InterleavedThreads IsoTimestamps JsonValues KeyedTables PythonText
open StatementPrograms TransitionRuns

/-- `open` of an artifact that is active, with the bytes of the stream. -/
def openFound (sha : String) (sessionId : Option String) : Prog (Except ArtifactCtlError Bytes) := do
  match ← look fun ix _ => ix.getArtifact sha with
  | none => pure (.error ⟨.notFound, "Artifact not found: " ++ sha⟩)
  | some row =>
    if row.isOpaque && (sessionId.getD "" = "" || sessionId ≠ row.sessionId) then
      pure (.error ⟨.policyDenied, "Opaque input belongs to another session"⟩)
    else do
      if ← look fun ix _ => ix.blobExists sha then
        match ← look fun ix _ => ix.getBlob sha with
        | none => pure (.error ⟨.notFound, "Blob is missing for artifact: " ++ sha⟩)
        | some data => pure (.ok data)
      else pure (.error ⟨.notFound, "Blob is missing for artifact: " ++ sha⟩)

/-- `open`. -/
def openArtifact (refOrSha : String) (sessionId : Option String) : Prog (Except ArtifactCtlError Bytes) := do
  match ← resolveActiveSha refOrSha with
  | .error e => pure (.error e)
  | .ok sha => openFound sha sessionId

/-- `read_bytes` reads the stream that `open` returns. -/
def readBytes (refOrSha : String) (sessionId : Option String) : Prog (Except ArtifactCtlError Bytes) :=
  openArtifact refOrSha sessionId

section Programs

variable (cfg : ArtifactCtlConfig) (sha256 : Bytes → String)

def ensureView (refOrSha : String) (r : ViewRequest) : Prog (Except ArtifactCtlError ArtifactMeta) := do
  match ← resolveSha refOrSha with
  | .error e => pure (.error e)
  | .ok rawSha => ArtifactPrograms.ensureView cfg sha256 rawSha r

def readView (refOrSha : String) (r : ViewRequest) : Prog (Except ArtifactCtlError Bytes) := do
  match ← ensureView cfg sha256 refOrSha r with
  | .error e => pure (.error e)
  | .ok view => readBytes view.sha256 none

inductive Op where
  | ingestBytes (i : Ingest) (auto : List ViewRequest)
  | openArtifact (refOrSha : String) (sessionId : Option String)
  | readBytes (refOrSha : String) (sessionId : Option String)
  | ensureView (refOrSha : String) (r : ViewRequest)
  | readView (refOrSha : String) (r : ViewRequest)

inductive Result where
  /-- No operation so far. -/
  | idle
  | ingested (result : Except ArtifactCtlError ArtifactMeta)
  | viewed (result : Except ArtifactCtlError ArtifactMeta)
  | read (result : Except ArtifactCtlError Bytes)
  deriving DecidableEq

def program : Op → Prog Result
  | .ingestBytes i auto => do return .ingested (← ArtifactPrograms.ingestBytes cfg sha256 i auto)
  | .openArtifact refOrSha sessionId => do return .read (← openArtifact refOrSha sessionId)
  | .readBytes refOrSha sessionId => do return .read (← readBytes refOrSha sessionId)
  | .ensureView refOrSha r => do return .viewed (← ensureView cfg sha256 refOrSha r)
  | .readView refOrSha r => do return .read (← readView cfg sha256 refOrSha r)

def Op.sessionId : Op → Option String
  | .openArtifact _ sessionId | .readBytes _ sessionId => sessionId
  | _ => none

def Op.opens : Op → Option String
  | .openArtifact refOrSha _ | .readBytes refOrSha _ => some refOrSha
  | _ => none

/-- The store, and the opaque inputs whose ingest has inserted the row of their artifact. -/
structure Vault where
  shared : Shared
  stored : List Ingest := []

structure Ghost where
  op : Option Op
  /-- The vault when the operation began. -/
  since : Vault
  /-- The blobs that are there for rows that are not written yet. -/
  held : List String := []
  /-- The store as every statement found it. -/
  seen : List Index := []

def learn (g : Ghost) (c : Stmt) (r : Reply) : Ghost :=
  match c with
  | .checkBlob sha => { g with held := if r.ix.blobExists sha then sha :: g.held else g.held, seen := r.ix :: g.seen }
  | .putBlob sha _ => { g with held := sha :: g.held, seen := r.ix :: g.seen }
  | _ => { g with seen := r.ix :: g.seen }

/-- The row is the one of an opaque input. -/
structure RowOf (i : Ingest) (row : ArtifactMeta) : Prop where
  isOpaque : row.isOpaque = true
  sessionId : row.sessionId = i.sessionId
  sha256 : row.sha256 = sha256 i.data
  named : i.sessionId.getD "" ≠ ""

/-- The statements of these operations: blobs and rows of their digests, and opaque rows for opaque inputs alone. -/
def permits (g : Ghost) : Stmt → Prop
  | .look | .readActive _ | .checkBlob _ | .upsertView _ => True
  | .putBlob sha data => sha = sha256 data
  | .upsertArtifact row => row.deletedAt = none ∧ row.sha256 ∈ g.held ∧
      (row.isOpaque = true → ∃ i auto, g.op = some (.ingestBytes i auto) ∧ i.isOpaque = true) ∧
      ∀ i auto, g.op = some (.ingestBytes i auto) → i.isOpaque = true → RowOf sha256 i row
  | _ => False

structure Client where
  program : Prog Result
  ghost : Ghost

def Client.returned (l : Client) : Option Result :=
  match l.program with
  | .done result => some result
  | .step _ _ => none

def stores (op : Option Op) (ix : Index) : Stmt → List Ingest
  | .upsertArtifact row =>
    match op with
    | some (.ingestBytes i _) =>
      if i.isOpaque ∧ ¬ix.artifacts.any (fun r => r.sha256 = row.sha256) then [i] else []
    | _ => []
  | _ => []

def clients : Threads Vault Client Op DateTime where
  isIdle l := match l.program with
    | .done _ => true
    | .step _ _ => false
  begin v op := (v, ⟨program cfg sha256 op, { op := some op, since := v }⟩)
  next v l now := match l.program with
    | .done _ => (v, l)
    | .step c next =>
      (⟨v.shared.apply now c, v.stored ++ stores l.ghost.op v.shared.ix c⟩,
        ⟨next (v.shared.reply now), learn l.ghost c (v.shared.reply now)⟩)

def Vault.empty : Vault := ⟨⟨{}, []⟩, []⟩

def initial (Thread : Type) : System Thread Vault Client := ⟨.empty, fun _ => ⟨.done .idle, { op := none, since := .empty }⟩⟩

end Programs

section Statements

variable (sha256 : Bytes → String)

/-- One active row with its blob for each artifact, and blobs under their digests. -/
structure Sane (ix : Index) : Prop where
  unique : UniqueKey ArtifactMeta.sha256 ix.artifacts
  active : ∀ row ∈ ix.artifacts, row.deletedAt = none
  present : ∀ row ∈ ix.artifacts, ix.blobExists row.sha256 = true
  digests : ∀ b ∈ ix.blobs, b.sha256 = sha256 b.data

/-- Rows and blobs stay as they are. -/
structure Grows (ix ix' : Index) : Prop where
  rows : ∀ row ∈ ix.artifacts, row ∈ ix'.artifacts
  blobs : ∀ b ∈ ix.blobs, b ∈ ix'.blobs

/-- Opaque rows and the inputs that have stored them. -/
structure Owned (v : Vault) : Prop where
  inputs : ∀ i ∈ v.stored, i.isOpaque = true
  stored : ∀ row ∈ v.shared.ix.artifacts, row.isOpaque = true → ∃ i ∈ v.stored, RowOf sha256 i row
  rows : ∀ i ∈ v.stored, ∃ row ∈ v.shared.ix.artifacts, RowOf sha256 i row

theorem Grows.refl (ix : Index) : Grows ix ix := ⟨fun _ h => h, fun _ h => h⟩

theorem Grows.trans {ix ix' ix'' : Index} (h : Grows ix ix') (h' : Grows ix' ix'') : Grows ix ix'' :=
  ⟨fun row hrow => h'.rows row (h.rows row hrow), fun b hb => h'.blobs b (h.blobs b hb)⟩

theorem Grows.blobExists {ix ix' : Index} (h : Grows ix ix') {sha : String} (hsha : ix.blobExists sha = true) :
    ix'.blobExists sha = true := by
  obtain ⟨b, hb, hbsha⟩ := Index.blobExists_iff.mp hsha
  exact Index.blobExists_iff.mpr ⟨b, h.blobs b hb, hbsha⟩

variable {sha256} {ix : Index} {now : DateTime} {g : Ghost} {c : Stmt}

theorem sane_empty : Sane sha256 {} := ⟨.nil, fun _ h => (nomatch h), fun _ h => (nomatch h), fun _ h => (nomatch h)⟩

theorem artifacts_upsert (h : Sane sha256 ix) {row : ArtifactMeta} (hrow : row.deletedAt = none) :
    (ix.upsertArtifact row).artifacts =
      if ix.artifacts.any fun r => r.sha256 = row.sha256 then ix.artifacts else ix.artifacts ++ [row] := by
  rw [Index.upsertArtifact]
  dsimp only
  split
  · rw [updateWhere_eq_self_iff]
    intro r hr _
    rw [hrow, ← h.active r hr]
  · rfl

theorem grows_putBytes (sha : String) (data : Bytes) : Grows ix (ix.putBytes sha data) := by
  rw [Index.putBytes]
  split
  · exact .refl ix
  · exact ⟨fun _ h => h, fun b hb => List.mem_append_left _ hb⟩

theorem grows_write (h : Sane sha256 ix) (hpermits : permits sha256 g c) : Grows ix (c.write now ix) := by
  cases c with
  | putBlob sha data => exact grows_putBytes sha data
  | upsertArtifact row =>
    refine ⟨fun r hr => ?_, fun _ hb => hb⟩
    rw [Stmt.write, artifacts_upsert h hpermits.1]
    split
    · exact hr
    · exact List.mem_append_left _ hr
  | look | readActive | checkBlob | upsertView => exact ⟨fun _ hr => hr, fun _ hb => hb⟩
  | _ => exact hpermits.elim

theorem sane_write (h : Sane sha256 ix) (hpermits : permits sha256 g c) (hheld : ∀ sha ∈ g.held, ix.blobExists sha = true) :
    Sane sha256 (c.write now ix) := by
  have hgrows : Grows ix (c.write now ix) := grows_write h hpermits
  cases c with
  | putBlob sha data =>
    rw [Stmt.write] at hgrows ⊢
    refine ⟨?_, ?_, ?_, ?_⟩
    · rw [Index.putBytes]
      split <;> exact h.unique
    · rw [Index.putBytes]
      split <;> exact h.active
    · intro row hrow
      refine hgrows.blobExists (h.present row ?_)
      rw [Index.putBytes] at hrow
      split at hrow <;> exact hrow
    · intro b hb
      rw [Index.putBytes] at hb
      split at hb
      · exact h.digests b hb
      · rcases List.mem_append.mp hb with hold | hnew
        · exact h.digests b hold
        · rw [List.mem_singleton.mp hnew]
          exact hpermits
  | upsertArtifact row =>
    refine ⟨Index.uniqueKey_upsertArtifact h.unique row, ?_, ?_, h.digests⟩
    · intro r hr
      rw [Stmt.write, artifacts_upsert h hpermits.1] at hr
      split at hr
      · exact h.active r hr
      · rcases List.mem_append.mp hr with hold | hnew
        · exact h.active r hold
        · rw [List.mem_singleton.mp hnew]
          exact hpermits.1
    · intro r hr
      refine hgrows.blobExists ?_
      rw [Stmt.write, artifacts_upsert h hpermits.1] at hr
      split at hr
      · exact h.present r hr
      · rcases List.mem_append.mp hr with hold | hnew
        · exact h.present r hold
        · rw [List.mem_singleton.mp hnew]
          exact hheld _ hpermits.2.1
  | look | readActive | checkBlob | upsertView => exact ⟨h.unique, h.active, h.present, h.digests⟩
  | _ => exact hpermits.elim

theorem owned_write {v : Vault} (h : Owned sha256 v) (hsane : Sane sha256 v.shared.ix) (hpermits : permits sha256 g c) :
    Owned sha256 ⟨v.shared.apply now c, v.stored ++ stores g.op v.shared.ix c⟩ := by
  have hgrows : Grows v.shared.ix (c.write now v.shared.ix) := grows_write hsane hpermits
  have hkept : ∀ i ∈ v.stored, ∃ row ∈ (c.write now v.shared.ix).artifacts, RowOf sha256 i row := by
    intro i hi
    obtain ⟨row, hrow, hof⟩ := h.rows i hi
    exact ⟨row, hgrows.rows row hrow, hof⟩
  by_cases hc : ∃ row, c = .upsertArtifact row
  · obtain ⟨row, rfl⟩ := hc
    obtain ⟨hdeleted, -, hopaque, hown⟩ := hpermits
    have hrows := artifacts_upsert hsane hdeleted
    refine ⟨?_, ?_, ?_⟩
    · intro i hi
      rcases List.mem_append.mp hi with hold | hnew
      · exact h.inputs i hold
      · dsimp only [stores] at hnew
        split at hnew
        · split at hnew
          · next hinserted =>
            rw [List.mem_singleton.mp hnew]
            exact hinserted.1
          · cases hnew
        · cases hnew
    · intro r hr hpolicy
      rw [Shared.apply, Stmt.write, hrows] at hr
      split at hr
      · obtain ⟨i, hi, hof⟩ := h.stored r hr hpolicy
        exact ⟨i, List.mem_append_left _ hi, hof⟩
      · next hnone =>
        rcases List.mem_append.mp hr with hold | hnew
        · obtain ⟨i, hi, hof⟩ := h.stored r hold hpolicy
          exact ⟨i, List.mem_append_left _ hi, hof⟩
        · rw [List.mem_singleton.mp hnew] at hpolicy ⊢
          obtain ⟨i, auto, hop, hi⟩ := hopaque hpolicy
          refine ⟨i, List.mem_append_right _ ?_, hown i auto hop hi⟩
          dsimp only [stores]
          rw [hop]
          dsimp only
          rw [if_pos ⟨hi, hnone⟩]
          exact List.mem_singleton_self i
    · intro i hi
      rcases List.mem_append.mp hi with hold | hnew
      · exact hkept i hold
      · dsimp only [stores] at hnew
        split at hnew
        · next op j auto hop =>
          split at hnew
          · next hinserted =>
            rw [List.mem_singleton.mp hnew]
            refine ⟨row, ?_, hown j auto hop hinserted.1⟩
            rw [Shared.apply, Stmt.write, hrows, if_neg hinserted.2]
            exact List.mem_append_right _ (List.mem_singleton_self row)
          · cases hnew
        · cases hnew
  · have hnone : stores g.op v.shared.ix c = [] := by
      cases c with
      | upsertArtifact row => exact absurd ⟨row, rfl⟩ hc
      | _ => rfl
    have hsame : (c.write now v.shared.ix).artifacts = v.shared.ix.artifacts := by
      cases c with
      | upsertArtifact row => exact absurd ⟨row, rfl⟩ hc
      | putBlob sha data =>
        rw [Stmt.write, Index.putBytes]
        split <;> rfl
      | look | readActive | checkBlob | upsertView => rfl
      | _ => exact hpermits.elim
    rw [hnone, List.append_nil]
    refine ⟨h.inputs, fun r hr => h.stored r ?_, hkept⟩
    rw [← hsame]
    exact hr

end Statements

/-- The statements of a program are permitted. -/
abbrev Follows (sha256 : Bytes → String) {α : Type} (Q : Ghost → α → Prop) (g : Ghost) (p : Prog α) : Prop :=
  Program.Obeys (permits sha256) learn Q g p

/-- An operation goes on. -/
structure Extends (g g' : Ghost) : Prop where
  op : g'.op = g.op
  since : g'.since = g.since
  seen : ∀ ix ∈ g.seen, ix ∈ g'.seen

/-- A row that the session may read, and the blob. -/
structure FoundBy (sessionId : Option String) (g : Ghost) (sha : String) (data : Bytes) : Prop where
  row : ∃ ix ∈ g.seen, ∃ row ∈ ix.artifacts, row.sha256 = sha ∧ MayRead row sessionId
  blob : ∃ ix ∈ g.seen, ⟨sha, data⟩ ∈ ix.blobs

def Readable (sha : String) (sessionId : Option String) (ix : Index) : Prop :=
  ix.blobExists sha = true ∧ ∃ row, ix.getActive sha = some row ∧ MayRead row sessionId

/-- What a read gives was found, and it gives something when the artifact was there at every statement. -/
structure ReadOf (sessionId : Option String) (g : Ghost) (sha : String) (result : Except ArtifactCtlError Bytes) : Prop where
  found : ∀ data, result = .ok data → FoundBy sessionId g sha data
  given : (∀ ix ∈ g.seen, Readable sha sessionId ix) → ∃ data, result = .ok data

theorem Extends.refl (g : Ghost) : Extends g g := ⟨rfl, rfl, fun _ h => h⟩

theorem Extends.trans {g g' g'' : Ghost} (h : Extends g g') (h' : Extends g' g'') : Extends g g'' :=
  ⟨h'.op.trans h.op, h'.since.trans h.since, fun ix hix => h'.seen ix (h.seen ix hix)⟩

theorem extends_learn (g : Ghost) (c : Stmt) (r : Reply) : Extends g (learn g c r) ∧ r.ix ∈ (learn g c r).seen := by
  cases c <;> exact ⟨⟨rfl, rfl, fun ix h => List.mem_cons_of_mem _ h⟩, List.mem_cons_self⟩

section Rules

-- Only the rules of `Obeys` are used here, and it must not be evaluated on the programs.
attribute [local irreducible] Program.Obeys

variable {sha256 : Bytes → String} {g : Ghost} {op : Option Op}

theorem follows_look {α : Type} (f : Index → DateTime → α) :
    Follows sha256 (fun g' a => Extends g g' ∧ ∃ ix ∈ g'.seen, ∃ now, f ix now = a) g (look f) :=
  Program.obeys_perform trivial fun r => ⟨(extends_learn g .look r).1, r.ix, (extends_learn g .look r).2, r.now, rfl⟩

theorem mayRead_iff {row : ArtifactMeta} {sessionId : Option String} :
    (row.isOpaque && (sessionId.getD "" = "" || sessionId ≠ row.sessionId)) = true ↔ ¬MayRead row sessionId := by
  rw [MayRead, Bool.and_eq_true, Bool.or_eq_true, decide_eq_true_eq, decide_eq_true_eq]
  tauto

theorem follows_openFound (sha : String) (sessionId : Option String) :
    Follows sha256 (fun g' result => Extends g g' ∧ ReadOf sessionId g' sha result) g (openFound sha sessionId) := by
  refine (follows_look _).bind ?_
  rintro g₁ (_ | row) ⟨hext, ix, hix, -, hrow⟩
  · refine Program.obeys_pure ⟨hext, fun _ h => (nomatch h), fun hthere => ?_⟩
    obtain ⟨-, row, hactive, -⟩ := hthere ix hix
    rw [Index.getActive, hrow] at hactive
    cases hactive
  · dsimp only
    split
    · next hdenied =>
      refine Program.obeys_pure ⟨hext, fun _ h => (nomatch h), fun hthere => ?_⟩
      obtain ⟨-, other, hactive, hmay⟩ := hthere ix hix
      rw [Index.getActive, hrow] at hactive
      obtain ⟨hsame, -⟩ := Option.filter_eq_some_iff.mp hactive
      cases hsame
      exact absurd hmay (mayRead_iff.mp hdenied)
    · next hallowed =>
      have hmay : MayRead row sessionId := not_not.mp (mt mayRead_iff.mpr hallowed)
      refine (follows_look _).bind ?_
      rintro g₂ found ⟨hext₂, ix₂, hix₂, -, hexists⟩
      split
      · refine (follows_look _).bind ?_
        rintro g₃ (_ | data) ⟨hext₃, ix₃, hix₃, -, hdata⟩
        · refine Program.obeys_pure ⟨hext.trans (hext₂.trans hext₃), fun _ h => (nomatch h), fun hthere => ?_⟩
          have hblob := (hthere ix₃ hix₃).1
          rw [Index.blobExists, hdata] at hblob
          cases hblob
        · refine Program.obeys_pure ⟨hext.trans (hext₂.trans hext₃), ?_, fun _ => ⟨data, rfl⟩⟩
          rintro other ⟨⟩
          obtain ⟨hmem, hsha⟩ := lookup_some hrow
          exact ⟨⟨ix, hext₃.seen ix (hext₂.seen ix hix), row, hmem, hsha, hmay⟩, ix₃, hix₃, Index.mem_of_getBlob hdata⟩
      · next hnot =>
        refine Program.obeys_pure ⟨hext.trans hext₂, fun _ h => (nomatch h), fun hthere => ?_⟩
        exact absurd (hexists.symm.trans (hthere ix₂ hix₂).1) hnot

theorem follows_resolveSha (text : String) :
    Follows sha256 (fun g' result => Extends g g' ∧ ∀ sha, parseRefOrSha (strip text) = some sha → result = .ok sha) g
      (resolveSha text) := by
  rw [resolveSha]
  split
  · next hempty =>
    refine Program.obeys_pure ⟨.refl g, fun sha hsha => ?_⟩
    have hnone : parseRefOrSha "" = none := by decide
    rw [hempty, hnone] at hsha
    cases hsha
  split
  · next sha' hparsed =>
    refine Program.obeys_pure ⟨.refl g, fun sha hsha => ?_⟩
    rw [hparsed] at hsha
    cases hsha
    rfl
  · next hparsed =>
    refine (follows_look _).bind ?_
    rintro g' (_ | row) ⟨hext, -⟩
    · refine Program.obeys_pure ⟨hext, fun sha hsha => ?_⟩
      rw [hparsed] at hsha
      cases hsha
    · refine Program.obeys_pure ⟨hext, fun sha hsha => ?_⟩
      rw [hparsed] at hsha
      cases hsha

theorem follows_resolveActiveSha (text : String) (sessionId : Option String) :
    Follows sha256 (fun g' result => Extends g g' ∧ ∀ sha, parseRefOrSha (strip text) = some sha →
      (∀ ix ∈ g'.seen, Readable sha sessionId ix) → result = .ok sha) g (resolveActiveSha text) := by
  refine (follows_resolveSha text).bind ?_
  rintro g₁ (e | sha') ⟨hext, hparsed⟩
  · refine Program.obeys_pure ⟨hext, fun sha hsha _ => ?_⟩
    cases hparsed sha hsha
  · have hget : Follows sha256 (fun g' found => Extends g₁ g' ∧ ∃ ix ∈ g'.seen, ix.getActive sha' = found) g₁ (getActive sha') :=
      Program.obeys_perform trivial fun r =>
        ⟨(extends_learn g₁ (.readActive sha') r).1, r.ix, (extends_learn g₁ (.readActive sha') r).2, rfl⟩
    refine hget.bind ?_
    rintro g₂ (_ | row) ⟨hext₂, ix, hix, hactive⟩
    · refine Program.obeys_pure ⟨hext.trans hext₂, fun sha hsha hthere => ?_⟩
      cases hparsed sha hsha
      obtain ⟨-, row, hrow, -⟩ := hthere ix hix
      rw [hactive] at hrow
      cases hrow
    · refine Program.obeys_pure ⟨hext.trans hext₂, fun sha hsha _ => ?_⟩
      exact hparsed sha hsha

/-- What `open` gives is the artifact that was asked for, as the session may read it. -/
structure OpenedBy (text : String) (sessionId : Option String) (g : Ghost) (result : Except ArtifactCtlError Bytes) : Prop where
  found : ∀ data, result = .ok data → ∃ sha, FoundBy sessionId g sha data
  given : ∀ sha, parseRefOrSha (strip text) = some sha → (∀ ix ∈ g.seen, Readable sha sessionId ix) →
    ∃ data, result = .ok data ∧ FoundBy sessionId g sha data

theorem follows_openArtifact (text : String) (sessionId : Option String) :
    Follows sha256 (fun g' result => Extends g g' ∧ OpenedBy text sessionId g' result) g (openArtifact text sessionId) := by
  refine (follows_resolveActiveSha text sessionId).bind ?_
  rintro g₁ (e | sha') ⟨hext, hactive⟩
  · refine Program.obeys_pure ⟨hext, fun _ h => (nomatch h), fun sha hsha hthere => ?_⟩
    cases hactive sha hsha hthere
  · refine (follows_openFound sha' sessionId).mono ?_
    rintro g₂ result ⟨hext₂, hread⟩
    refine ⟨hext.trans hext₂, fun data hdata => ⟨sha', hread.found data hdata⟩, fun sha hsha hthere => ?_⟩
    cases hactive sha hsha fun ix hix => hthere ix (hext₂.seen ix hix)
    obtain ⟨data, hdata⟩ := hread.given hthere
    exact ⟨data, hdata, hread.found data hdata⟩

/-- The statements of a program are permitted to an operation. -/
def Obedient (sha256 : Bytes → String) (op : Option Op) {α : Type} (p : Prog α) : Prop :=
  ∀ g, g.op = op → Follows sha256 (fun g' _ => g'.op = op) g p

theorem obedient_pure {α : Type} (a : α) : Obedient sha256 op (pure a) := fun _ h => Program.obeys_pure h

theorem Obedient.bind {α β : Type} {p : Prog α} {f : α → Prog β} (hp : Obedient sha256 op p)
    (hf : ∀ a, Obedient sha256 op (f a)) : Obedient sha256 op (p >>= f) :=
  fun g h => (hp g h).bind fun g' a h' => hf a g' h'

theorem obedient_look {α : Type} (f : Index → DateTime → α) : Obedient sha256 op (look f) := fun _ h =>
  (follows_look f).mono fun _ _ hext => hext.1.op.trans h

theorem get_of_not_has {d : Dict} {key : String} (h : Dict.has d key = false) : Dict.get d key = .null := by
  rw [Dict.get, List.find?_eq_none.mpr]
  · rfl
  · intro entry hentry hkey
    rw [Dict.has, List.any_eq_false] at h
    exact h entry hentry hkey

theorem isOpaque_ingestRow (cfg : ArtifactCtlConfig) {i : Ingest} (h : Dict.has i.metadata "opaque" = false) (now : DateTime) :
    (ingestRow cfg sha256 i now).isOpaque = i.isOpaque := by
  rw [ArtifactMeta.isOpaque, ingestRow]
  cases hi : i.isOpaque with
  | true =>
    rw [if_pos rfl, Dict.get_set_self]
    rfl
  | false =>
    rw [if_neg Bool.false_ne_true, get_of_not_has h]
    rfl

variable {cfg : ArtifactCtlConfig}

/-- The input of an ingest: an opaque one is that of the operation, and of a session. -/
structure InputOf (op : Option Op) (i : Ingest) : Prop where
  own : i.isOpaque = true → (∃ auto, op = some (.ingestBytes i auto)) ∧ i.sessionId.getD "" ≠ ""
  alone : ∀ j auto, op = some (.ingestBytes j auto) → j.isOpaque = true → i = j

theorem obedient_storeData {i : Ingest} (hi : InputOf op i) : Obedient sha256 op (storeData cfg sha256 i) := by
  have hrow : Dict.has i.metadata "opaque" = false → ∀ g, g.op = op → sha256 i.data ∈ g.held →
      Follows sha256 (fun g' _ => g'.op = op) g (do
        let now ← isoNow
        statement (.upsertArtifact (ingestRow cfg sha256 i now))
        if ← look fun ix _ => ArtifactControl.policyDiffers ix (sha256 i.data) i.isOpaque then
          pure (.error ArtifactControl.policyError)
        else pure (.ok ()) : Prog (Except ArtifactCtlError Unit)) := by
    intro hpolicy g hop hheld
    have hnow : Follows sha256 (fun g' _ => g'.op = op ∧ sha256 i.data ∈ g'.held) g isoNow :=
      Program.obeys_perform trivial fun r => ⟨hop, hheld⟩
    refine hnow.bind ?_
    rintro g' now ⟨hop', hheld'⟩
    have hpermits : permits sha256 g' (.upsertArtifact (ingestRow cfg sha256 i now)) := by
      refine ⟨rfl, hheld', fun hrow => ?_, fun j auto hj hpolicyj => ?_⟩
      · rw [isOpaque_ingestRow cfg hpolicy] at hrow
        obtain ⟨⟨auto, hown⟩, -⟩ := hi.own hrow
        exact ⟨i, auto, hop'.trans hown, hrow⟩
      · obtain rfl := hi.alone j auto (hop'.symm.trans hj) hpolicyj
        refine ⟨?_, rfl, rfl, (hi.own hpolicyj).2⟩
        rw [isOpaque_ingestRow cfg hpolicy, hpolicyj]
    have hupsert : Follows sha256 (fun g'' _ => g''.op = op) g' (statement (.upsertArtifact (ingestRow cfg sha256 i now))) :=
      Program.obeys_perform hpermits fun _ => hop'
    refine hupsert.bind fun g'' _ hop'' => (obedient_look _).bind ?_ g'' hop''
    intro differs
    split
    · exact obedient_pure _
    · exact obedient_pure _
  have hcheck : ∀ g, g.op = op → Follows sha256 (fun g' found => g'.op = op ∧ (found = true → sha256 i.data ∈ g'.held)) g
      (.perform (.checkBlob (sha256 i.data)) fun r => r.ix.blobExists (sha256 i.data)) := by
    intro g hop
    refine Program.obeys_perform trivial fun r => ⟨hop, fun hfound => ?_⟩
    dsimp only [learn]
    rw [if_pos hfound]
    exact List.mem_cons_self
  have hput : ∀ g, g.op = op → Follows sha256 (fun g' _ => g'.op = op ∧ sha256 i.data ∈ g'.held) g
      (statement (.putBlob (sha256 i.data) i.data)) :=
    fun g hop => Program.obeys_perform rfl fun _ => ⟨hop, List.mem_cons_self⟩
  rw [storeData]
  split
  · exact obedient_pure _
  · refine (obedient_look _).bind fun differs => ?_
    split
    · exact obedient_pure _
    split
    · exact obedient_pure _
    · next hmetadata =>
      intro g hop
      refine (hcheck g hop).bind ?_
      rintro g' found ⟨hop', hfound⟩
      dsimp only
      split
      · next hyes => exact hrow (by simpa using hmetadata) g' hop' (hfound hyes)
      · exact (hput g' hop').bind fun g'' _ hboth => hrow (by simpa using hmetadata) g'' hboth.1 hboth.2

theorem obedient_ingestInternal {i : Ingest} (hi : InputOf op i) {views : Prog Unit} (hviews : Obedient sha256 op views) :
    Obedient sha256 op (ingestInternal cfg sha256 i views) := by
  refine (obedient_storeData hi).bind ?_
  rintro (e | _)
  · exact obedient_pure _
  · refine hviews.bind fun _ => (obedient_look _).bind ?_
    rintro (_ | row)
    · exact obedient_pure _
    · exact obedient_pure _

theorem obedient_storedView (rawSha viewType policyHash : String) : Obedient sha256 op (storedView rawSha viewType policyHash) := by
  refine (obedient_look _).bind ?_
  rintro (_ | sha)
  · exact obedient_pure _
  · dsimp only
    split
    · exact obedient_pure _
    · refine (obedient_look _).bind ?_
      rintro (_ | view)
      · exact obedient_pure _
      · refine (obedient_look _).bind fun found => ?_
        split
        · exact obedient_pure _
        · exact obedient_pure _

theorem obedient_readRaw (sha : String) : Obedient sha256 op (ArtifactPrograms.readBytes sha) := by
  refine (obedient_look _).bind ?_
  rintro (_ | active)
  · exact obedient_pure _
  · refine (obedient_look _).bind ?_
    rintro (_ | row)
    · exact obedient_pure _
    · dsimp only
      split
      · exact obedient_pure _
      · refine (obedient_look _).bind fun found => ?_
        split
        · refine (obedient_look _).bind ?_
          rintro (_ | data)
          · exact obedient_pure _
          · exact obedient_pure _
        · exact obedient_pure _

def Plain (op : Option Op) : Prop := ∀ i auto, op = some (.ingestBytes i auto) → i.isOpaque = false

theorem obedient_ensureView (hop : Plain op) (rawSha : String) (r : ViewRequest) :
    Obedient sha256 op (ArtifactPrograms.ensureView cfg sha256 rawSha r) := by
  rw [ArtifactPrograms.ensureView]
  split
  · exact obedient_pure _
  · refine (obedient_look _).bind ?_
    rintro (_ | raw)
    · exact obedient_pure _
    · dsimp only
      split
      · exact obedient_pure _
      · refine (obedient_storedView _ _ _).bind ?_
        rintro (_ | view)
        · refine (obedient_readRaw rawSha).bind ?_
          rintro (e | data)
          · exact obedient_pure _
          · dsimp only
            split
            · exact obedient_pure _
            · next payload mime _ =>
              -- A view is no opaque input.
              have hinput : InputOf op (viewIngest raw (strip r.viewType).toLower payload mime) := by
                refine ⟨fun h => (nomatch h), fun j auto hj hpolicy => ?_⟩
                rw [hop j auto hj] at hpolicy
                cases hpolicy
              refine (obedient_ingestInternal hinput (obedient_pure ())).bind ?_
              rintro (e | view)
              · exact obedient_pure _
              · have hview : Obedient sha256 op (statement (.upsertView (ArtifactControl.viewRow raw (strip r.viewType).toLower
                    r.policyHash mime view))) := fun g h => Program.obeys_perform trivial fun _ => h
                exact hview.bind fun _ => obedient_pure _
        · exact obedient_pure _

theorem obedient_autoGenerateViews (hop : Plain op) (sha : String) (rs : List ViewRequest) :
    Obedient sha256 op (autoGenerateViews cfg sha256 sha rs) := by
  induction rs with
  | nil => exact obedient_pure _
  | cons r rs ih => exact (obedient_ensureView hop sha r).bind fun _ => ih

theorem obedient_ingestBytes (i : Ingest) (auto : List ViewRequest) :
    Obedient sha256 (some (.ingestBytes i auto)) (ingestBytes cfg sha256 i auto) := by
  rw [ingestBytes]
  split
  · exact obedient_pure _
  · next hsession =>
    refine obedient_ingestInternal ⟨fun hpolicy => ⟨⟨auto, rfl⟩, fun hnone => ?_⟩, fun j auto' hj _ => ?_⟩ ?_
    · exact hsession (by rw [hpolicy, Bool.true_and, decide_eq_true_eq]; exact hnone)
    · cases hj
      rfl
    · split
      · exact obedient_pure _
      · next hplain =>
        refine obedient_autoGenerateViews (fun j auto' hj => ?_) _ auto
        cases hj
        simpa using hplain

def Returned (g : Ghost) : Result → Prop
  | .read result => (∀ data, result = .ok data → ∃ sha, FoundBy ((g.op.bind Op.sessionId)) g sha data) ∧
      ∀ text, g.op.bind Op.opens = some text → OpenedBy text (g.op.bind Op.sessionId) g result
  | _ => True

theorem obedient_viewOf (hop : Plain op) (text : String) (r : ViewRequest) :
    Obedient sha256 op (ensureView cfg sha256 text r) := by
  have hresolve : Obedient sha256 op (resolveSha text) := fun g h =>
    (follows_resolveSha text).mono fun _ _ hext => hext.1.op.trans h
  refine hresolve.bind ?_
  rintro (e | sha)
  · exact obedient_pure _
  · exact obedient_ensureView hop sha r

theorem follows_readView (text : String) (r : ViewRequest) (hop : g.op = some (.readView text r)) :
    Follows sha256 (fun g' result => g'.op = some (.readView text r) ∧
      ∀ data, result = .ok data → ∃ sha, FoundBy none g' sha data) g (readView cfg sha256 text r) := by
  have hplain : Plain (some (.readView text r)) := by
    rintro _ _ ⟨⟩
  refine (obedient_viewOf hplain text r g hop).bind ?_
  rintro g₁ (e | view) hop₁
  · exact Program.obeys_pure ⟨hop₁, fun _ h => (nomatch h)⟩
  · refine (follows_openArtifact view.sha256 none).mono ?_
    rintro g₂ result ⟨hext, hopened⟩
    exact ⟨hext.op.trans hop₁, hopened.found⟩

theorem follows_opening {text : String} {sessionId : Option String} (hopens : g.op.bind Op.opens = some text)
    (hsession : g.op.bind Op.sessionId = sessionId) :
    Follows sha256 Returned g (openArtifact text sessionId >>= fun result => pure (.read result)) := by
  refine (follows_openArtifact text sessionId).bind ?_
  rintro g' result ⟨hext, hopened⟩
  refine Program.obeys_pure ?_
  rw [Returned, hext.op, hopens, hsession]
  refine ⟨hopened.found, fun other hother => ?_⟩
  cases hother
  exact hopened

theorem follows_program (op : Op) (since : Vault) :
    Follows sha256 Returned { op := some op, since := since } (program cfg sha256 op) := by
  cases op with
  | ingestBytes i auto => exact (obedient_ingestBytes i auto _ rfl).bind fun _ _ _ => Program.obeys_pure trivial
  | ensureView text r =>
    have hplain : Plain (some (.ensureView text r)) := by
      rintro _ _ ⟨⟩
    exact (obedient_viewOf hplain text r _ rfl).bind fun _ _ _ => Program.obeys_pure trivial
  | openArtifact text sessionId => exact follows_opening (g := { op := some _, since := since }) rfl rfl
  | readBytes text sessionId => exact follows_opening (g := { op := some _, since := since }) rfl rfl
  | readView text r =>
    refine (follows_readView text r rfl).bind ?_
    rintro g result ⟨hop, hfound⟩
    refine Program.obeys_pure ?_
    rw [Returned, hop]
    exact ⟨hfound, fun text h => (nomatch h)⟩

end Rules

section Runs

variable {cfg : ArtifactCtlConfig} {sha256 : Bytes → String}

/-- The vault is sane, and its opaque rows are those of the inputs that have stored them. -/
structure Safe (sha256 : Bytes → String) (v : Vault) : Prop where
  sane : Sane sha256 v.shared.ix
  owned : Owned sha256 v

/-- What a client saw is still there. -/
structure Knows (sha256 : Bytes → String) (v : Vault) (l : Client) : Prop where
  began : Safe sha256 l.ghost.since
  since : Grows l.ghost.since.shared.ix v.shared.ix
  held : ∀ sha ∈ l.ghost.held, v.shared.ix.blobExists sha = true
  seen : ∀ ix ∈ l.ghost.seen, Sane sha256 ix ∧ Grows l.ghost.since.shared.ix ix ∧ Grows ix v.shared.ix
  follows : Program.Obeys (permits sha256) learn Returned l.ghost l.program

theorem safe_empty : Safe sha256 Vault.empty := ⟨sane_empty, fun _ h => (nomatch h), fun _ h => (nomatch h), fun _ h => (nomatch h)⟩

theorem Knows.grows {v v' : Vault} {l : Client} (h : Knows sha256 v l) (hgrows : Grows v.shared.ix v'.shared.ix) :
    Knows sha256 v' l where
  began := h.began
  since := h.since.trans hgrows
  held := fun sha hsha => hgrows.blobExists (h.held sha hsha)
  seen := fun ix hix => ⟨(h.seen ix hix).1, (h.seen ix hix).2.1, (h.seen ix hix).2.2.trans hgrows⟩
  follows := h.follows

theorem held_learn {v : Vault} {l : Client} (h : Knows sha256 v l) {c : Stmt} {now : DateTime}
    (hgrows : Grows v.shared.ix (c.write now v.shared.ix)) :
    ∀ sha ∈ (learn l.ghost c (v.shared.reply now)).held, (c.write now v.shared.ix).blobExists sha = true := by
  cases c with
  | checkBlob other =>
    intro sha hsha
    dsimp only [learn, Shared.reply] at hsha
    split at hsha
    · next hfound =>
      rcases List.mem_cons.mp hsha with rfl | hold
      · exact hfound
      · exact h.held sha hold
    · exact h.held sha hsha
  | putBlob other data =>
    intro sha hsha
    rcases List.mem_cons.mp hsha with rfl | hold
    · rw [Stmt.write, Index.putBytes]
      split
      · next hfound => exact hfound
      · exact Index.blobExists_iff.mpr ⟨_, List.mem_append_right _ (List.mem_singleton_self _), rfl⟩
    · exact hgrows.blobExists (h.held sha hold)
  | _ => exact fun sha hsha => hgrows.blobExists (h.held sha hsha)

variable {Thread : Type} {σ : System Thread Vault Client}

theorem keeps_begin (t : Thread) (op : Op) (h : Annotated (Safe sha256) (Knows sha256) σ) :
    Keeps (Safe sha256) (Knows sha256) σ t ((clients cfg sha256).begin σ.shared op) :=
  h.move ⟨h.shared, .refl _, fun _ hsha => (nomatch hsha), fun _ hix => (nomatch hix), follows_program op σ.shared⟩

theorem keeps_next (t : Thread) (now : DateTime) (h : Annotated (Safe sha256) (Knows sha256) σ) :
    Keeps (Safe sha256) (Knows sha256) σ t ((clients cfg sha256).next σ.shared (σ.threads t) now) := by
  have hmine := h.threads t
  dsimp only [clients]
  cases hprogram : (σ.threads t).program with
  | done result => exact h.move hmine
  | step c next =>
    have hfollows := hmine.follows
    rw [hprogram] at hfollows
    obtain ⟨hpermits, hrest⟩ := hfollows
    have hgrows : Grows σ.shared.shared.ix (c.write now σ.shared.shared.ix) := grows_write h.shared.sane hpermits
    refine ⟨⟨?_, ?_⟩, ?_, fun t' _ => (h.threads t').grows hgrows⟩
    · exact sane_write h.shared.sane hpermits hmine.held
    · exact owned_write h.shared.owned h.shared.sane hpermits
    · have hold : Knows sha256 ⟨σ.shared.shared.apply now c, σ.shared.stored⟩ (σ.threads t) := hmine.grows hgrows
      have hext := extends_learn (σ.threads t).ghost c (σ.shared.shared.reply now)
      have hsince := hext.1.since
      refine ⟨hsince ▸ hold.began, hsince ▸ hold.since, held_learn hmine hgrows, ?_, hrest _⟩
      intro ix hix
      have hcases : ix = σ.shared.shared.ix ∨ ix ∈ (σ.threads t).ghost.seen := by
        cases c <;> exact List.mem_cons.mp hix
      dsimp only
      rw [hsince]
      rcases hcases with rfl | hseen
      · exact ⟨h.shared.sane, hmine.since, hgrows⟩
      · exact hold.seen ix hseen

variable [DecidableEq Thread]

theorem safe_run (cfg : ArtifactCtlConfig) (sha256 : Bytes → String) (actions : List (Action Thread Op DateTime)) :
    Annotated (Safe sha256) (Knows sha256) (run (clients cfg sha256).step (initial Thread) actions) := by
  have hinitial : Annotated (Safe sha256) (Knows sha256) (initial Thread) :=
    ⟨safe_empty, fun _ => ⟨safe_empty, .refl _, fun _ h => (nomatch h), fun _ h => (nomatch h), trivial⟩⟩
  have hguarded : Guarded (clients cfg sha256).step (fun _ _ => True) (initial Thread) actions :=
    .of_forall (fun _ _ => trivial) _ _
  exact annotated_run (fun σ t op h _ _ => keeps_begin t op h) (fun σ t now h _ => keeps_next t now h) hinitial hguarded

/-- Opaque inputs in a vault: who reads one has stored it, and who has stored it reads it. -/
structure Isolated (sha256 : Bytes → String) (v : Vault) (l : Client) : Prop where
  /-- The bytes of an opaque artifact are read by the session whose input has stored it. -/
  confined : ∀ data, l.returned = some (.read (.ok data)) → ∀ row ∈ v.shared.ix.artifacts, row.sha256 = sha256 data →
    row.isOpaque = true → ∃ i ∈ v.stored, i.isOpaque = true ∧ i.sessionId.getD "" ≠ "" ∧
      l.ghost.op.bind Op.sessionId = i.sessionId ∧ sha256 i.data = sha256 data ∧ (Function.Injective sha256 → i.data = data)
  /-- The session whose input has stored an artifact reads it by its digest or reference. -/
  available : ∀ result text, l.returned = some (.read result) → l.ghost.op.bind Op.opens = some text →
    ∀ i ∈ l.ghost.since.stored, l.ghost.op.bind Op.sessionId = i.sessionId → parseRefOrSha (strip text) = some (sha256 i.data) →
      ∃ data, result = .ok data ∧ sha256 data = sha256 i.data ∧ (Function.Injective sha256 → data = i.data)

theorem program_of_returned {l : Client} {result : Result} (h : l.returned = some result) : l.program = .done result := by
  rw [Client.returned] at h
  cases hprogram : l.program with
  | done other =>
    rw [hprogram] at h
    cases h
    rfl
  | step c next =>
    rw [hprogram] at h
    cases h

theorem readable_of_grows {v : Vault} {ix : Index} (hsane : Sane sha256 ix) (hgrows : Grows v.shared.ix ix)
    {row : ArtifactMeta} (hrow : row ∈ v.shared.ix.artifacts) {sessionId : Option String} (hmay : MayRead row sessionId) :
    Readable row.sha256 sessionId ix := by
  have hmem := hgrows.rows row hrow
  refine ⟨hsane.present row hmem, row, ?_, hmay⟩
  rw [Index.getActive, Option.filter_eq_some_iff]
  refine ⟨hsane.unique.lookup_eq_some_iff.mpr ⟨hmem, rfl⟩, ?_⟩
  rw [ArtifactMeta.isActive, hsane.active row hmem]
  rfl

omit [DecidableEq Thread] in
theorem isolated_of_annotated (h : Annotated (Safe sha256) (Knows sha256) σ) (t : Thread) :
    Isolated sha256 σ.shared (σ.threads t) where
  confined := by
    intro data hreturned row hrow hsha hpolicy
    have hknows := h.threads t
    have hfollows := hknows.follows
    rw [program_of_returned hreturned] at hfollows
    obtain ⟨sha, ⟨⟨ix, hix, found, hfound, hfoundSha, hmay⟩, ix', hix', hblob⟩⟩ := hfollows.1 data rfl
    have hdigest : sha = sha256 data := (hknows.seen ix' hix').1.digests _ hblob
    -- The row that was found is the row of the artifact, since rows stay.
    obtain rfl := h.shared.sane.unique.eq_of_key_eq ((hknows.seen ix hix).2.2.rows found hfound) hrow
      (hfoundSha.trans (hdigest.trans hsha.symm))
    obtain ⟨i, hi, hof⟩ := h.shared.owned.stored found hrow hpolicy
    obtain ⟨-, hsession⟩ := hmay hpolicy
    have hsame : sha256 i.data = sha256 data := hof.sha256.symm.trans hsha
    exact ⟨i, hi, h.shared.owned.inputs i hi, hof.named, hsession.trans hof.sessionId, hsame, fun hinj => hinj hsame⟩
  available := by
    intro result text hreturned hopens i hi hsession hparsed
    have hknows := h.threads t
    have hfollows := hknows.follows
    rw [program_of_returned hreturned] at hfollows
    obtain ⟨row, hrow, hof⟩ := hknows.began.owned.rows i hi
    rw [← hof.sha256] at hparsed
    have hmay : MayRead row ((σ.threads t).ghost.op.bind Op.sessionId) := fun _ =>
      ⟨by rw [hsession]; exact hof.named, by rw [hsession]; exact hof.sessionId.symm⟩
    obtain ⟨data, hdata, hfound⟩ := (hfollows.2 text hopens).given row.sha256 hparsed fun ix hix =>
      readable_of_grows (hknows.seen ix hix).1 (hknows.seen ix hix).2.1 hrow hmay
    obtain ⟨ix, hix, hblob⟩ := hfound.blob
    have hsame : sha256 data = sha256 i.data := ((hknows.seen ix hix).1.digests _ hblob).symm.trans hof.sha256
    exact ⟨data, hdata, hsame, fun hinj => hinj hsame⟩

/-- In every interleaving the bytes of an opaque artifact are read by the session whose opaque input has stored it, by
no other one, and always by that one. -/
theorem opaque_inputs_isolated (cfg : ArtifactCtlConfig) (sha256 : Bytes → String) (Thread : Type) [DecidableEq Thread]
    (actions : List (Action Thread Op DateTime)) (t : Thread) :
    Isolated sha256 (run (clients cfg sha256).step (initial Thread) actions).shared
      ((run (clients cfg sha256).step (initial Thread) actions).threads t) :=
  isolated_of_annotated (safe_run cfg sha256 actions) t

def twoOpaqueIngests : List (Action Bool Op DateTime) :=
  Action.start true (Op.ingestBytes { data := [], sessionId := some "s1", isOpaque := true } []) ::
    List.replicate 8 (Action.advance true (onDay 738000 firstDay_lt_endOfTime)) ++
  Action.start false (Op.ingestBytes { data := [], sessionId := some "s2", isOpaque := true } []) ::
    List.replicate 8 (Action.advance false (onDay 738001 secondDay_lt_endOfTime))

/-- The ingest of the second session succeeds, and then it may not read the bytes. -/
theorem second_opaque_session_denied :
    let σ := run (clients {} fun _ => emptySha).step (initial Bool) twoOpaqueIngests
    let σ' := run (clients {} fun _ => emptySha).step σ
      (.start false (.readBytes emptySha (some "s2")) :: List.replicate 4 (Action.advance false (onDay 738002)))
    (match (σ.threads false).returned with
      | some (.ingested (.ok row)) => row.isOpaque
      | _ => false) = true ∧
    (σ'.threads false).returned =
      some (.read (.error ⟨.policyDenied, "Opaque input belongs to another session"⟩)) := by
  decide +kernel

end Runs

end OpenMinion.OpaqueInputs
