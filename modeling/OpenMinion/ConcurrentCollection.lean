import OpenMinion.ArtifactPrograms
import OpenMinion.ArtifactRetention
import Mathlib.Data.Fintype.Basic

/-!
# Collection among other clients

Collections with references, aliases and ingests in any interleaving, when nothing that a client found is changed
before the client acts on it.
-/
namespace OpenMinion.ConcurrentCollection
open ArtifactControl (ArtifactCtlConfig Ingest ingestRow unprotectedViewShas)
open ArtifactIndex ArtifactPrograms ArtifactRetention InterleavedThreads IsoTimestamps KeyedTables PythonText StatementPrograms
open TransitionRuns

structure Ghost where
  /-- The artifacts with active edges. -/
  roots : List String
  rootsAt : ℕ
  /-- The artifacts whose rows were deleted. -/
  marked : List String := []
  markedAt : ℕ := 0
  /-- The artifact whose row was active. -/
  active : List String := []
  activeAt : ℕ := 0
  /-- The blobs that are there for rows that are not written yet. -/
  held : List String := []

def Ghost.start (s : Shared) : Ghost where
  roots := s.ix.activeReferenceShas
  rootsAt := s.notes.length

def learn (g : Ghost) (c : Stmt) (r : Reply) : Ghost :=
  match c with
  | .readReferences => { g with roots := r.ix.activeReferenceShas, rootsAt := r.noted }
  | .readMarked => { g with marked := (r.ix.artifacts.filter fun row => !row.isActive).map (·.sha256), markedAt := r.noted }
  | .readActive sha => { g with active := if (r.ix.getActive sha).isSome then [sha] else [], activeAt := r.noted }
  | .checkBlob sha => if r.ix.blobExists sha then { g with held := sha :: g.held } else g
  | .putBlob sha _ => { g with held := sha :: g.held }
  | .upsertArtifact _ => { g with held := [] }
  | _ => g

/-- The controller marks what had no edge, deletes blobs of deleted rows, refers to active artifacts and writes rows
of blobs that are there. -/
def permits (g : Ghost) : Stmt → Prop
  | .markArtifacts shas _ => ∀ sha ∈ shas, sha ∉ g.roots
  | .deleteBlob sha => sha ∈ g.marked
  | .addReference _ _ sha => sha ∈ g.active
  | .upsertArtifact row => row.isActive = true ∧ row.sha256 ∈ g.held
  | _ => True

structure Client where
  program : Prog Result
  ghost : Ghost

section Clients

variable (cfg : ArtifactCtlConfig) (sha256 : Bytes → String)

def clients : Threads Shared Client Op DateTime where
  isIdle l := match l.program with
    | .done _ => true
    | .step _ _ => false
  begin s op := (s, ⟨program cfg sha256 op, .start s⟩)
  next s l now := match l.program with
    | .done _ => (s, l)
    | .step c next => (s.apply now c, ⟨next (s.reply now), learn l.ghost c (s.reply now)⟩)

def initial (Thread : Type) (ix : Index) : System Thread Shared Client := ⟨⟨ix, []⟩, fun _ => ⟨.done .idle, .start ⟨ix, []⟩⟩⟩

variable {Thread : Type}

/-- No other client adds an edge to what this one marks since it read the edges, marks what it refers to since it saw
the row, or ingests what it purges since it read the rows. -/
def UndisturbedBy (σ : System Thread Shared Client) (t : Thread) : Stmt → Prop
  | .markArtifacts shas _ => ∀ sha ∈ shas, Note.referenced sha ∉ σ.shared.notes.drop (σ.threads t).ghost.rootsAt
  | .addReference _ _ sha => Note.marked sha ∉ σ.shared.notes.drop (σ.threads t).ghost.activeAt
  | .deleteBlob sha => Note.ingested sha ∉ σ.shared.notes.drop (σ.threads t).ghost.markedAt ∧ ∀ t', sha ∉ (σ.threads t').ghost.held
  | _ => True

def Undisturbed (σ : System Thread Shared Client) : Action Thread Op DateTime → Prop
  | .start _ _ => True
  | .advance t _ =>
    match (σ.threads t).program with
    | .done _ => True
    | .step c _ => UndisturbedBy σ t c

instance [Fintype Thread] (σ : System Thread Shared Client) (t : Thread) (c : Stmt) : Decidable (UndisturbedBy σ t c) := by
  cases c <;> dsimp only [UndisturbedBy] <;> infer_instance

instance [Fintype Thread] (σ : System Thread Shared Client) (a : Action Thread Op DateTime) : Decidable (Undisturbed σ a) := by
  cases a with
  | start t op => exact inferInstanceAs (Decidable True)
  | advance t now =>
    dsimp only [Undisturbed]
    split <;> infer_instance

end Clients

/-- Rows are unique, an active row has its blob, and what an active edge refers to is active. -/
structure Consistent (ix : Index) : Prop where
  unique : UniqueKey ArtifactMeta.sha256 ix.artifacts
  present : ∀ sha, ix.Active sha → ∃ b ∈ ix.blobs, b.sha256 = sha
  referenced : ∀ sha ∈ ix.activeReferenceShas, ix.Active sha

/-- What a client found is so unless a note says otherwise. -/
structure Knows (s : Shared) (g : Ghost) : Prop where
  roots : ∀ sha ∈ s.ix.activeReferenceShas, sha ∈ g.roots ∨ .referenced sha ∈ s.notes.drop g.rootsAt
  marked : ∀ sha ∈ g.marked, s.ix.Active sha → .ingested sha ∈ s.notes.drop g.markedAt
  active : ∀ sha ∈ g.active, ¬ s.ix.Active sha → .marked sha ∈ s.notes.drop g.activeAt
  held : ∀ sha ∈ g.held, ∃ b ∈ s.ix.blobs, b.sha256 = sha
  rootsAt_le : g.rootsAt ≤ s.notes.length
  markedAt_le : g.markedAt ≤ s.notes.length
  activeAt_le : g.activeAt ≤ s.notes.length

variable {ix : Index} {now : DateTime} {c : Stmt}

theorem active_of_active_write {sha : String} (hrow : ∀ row, c = .upsertArtifact row → row.isActive = true)
    (h : (c.write now ix).Active sha) : ix.Active sha ∨ .ingested sha ∈ c.notes := by
  cases c with
  | upsertArtifact row =>
    rcases (Index.active_upsertArtifact (hrow row rfl)).mp h with rfl | hold
    · exact .inr (List.mem_singleton_self _)
    · exact .inl hold
  | markArtifacts shas deletedAt => exact .inl (Index.active_softDeleteArtifacts.mp h).1
  | hardDeleteArtifact removed => exact .inl (Index.active_hardDeleteArtifact.mp h)
  | putBlob other data =>
    rw [Stmt.write, Index.putBytes] at h
    split at h
    · exact .inl h
    · exact .inl h
  | _ => exact .inl h

theorem active_write {sha : String} (hrow : ∀ row, c = .upsertArtifact row → row.isActive = true) (h : ix.Active sha) :
    (c.write now ix).Active sha ∨ .marked sha ∈ c.notes := by
  cases c with
  | upsertArtifact row => exact .inl ((Index.active_upsertArtifact (hrow row rfl)).mpr (.inr h))
  | markArtifacts shas deletedAt =>
    by_cases hmem : sha ∈ shas
    · exact .inr (List.mem_map.mpr ⟨sha, hmem, rfl⟩)
    · exact .inl (Index.active_softDeleteArtifacts.mpr ⟨h, fun hboth => hmem hboth.1⟩)
  | hardDeleteArtifact removed => exact .inl (Index.active_hardDeleteArtifact.mpr h)
  | putBlob other data =>
    rw [Stmt.write, Index.putBytes]
    split
    · exact .inl h
    · exact .inl h
  | _ => exact .inl h

theorem referenced_of_referenced_write {sha : String} (h : sha ∈ (c.write now ix).activeReferenceShas) :
    sha ∈ ix.activeReferenceShas ∨ .referenced sha ∈ c.notes := by
  cases c with
  | addReference ownerType ownerId target =>
    rcases referenced_addReference h with rfl | hold
    · exact .inr (List.mem_singleton_self _)
    · exact .inl hold
  | hardDeleteEdges before =>
    obtain ⟨e, he, hlive, hsha⟩ := Index.mem_activeReferenceShas.mp h
    exact .inl (Index.mem_activeReferenceShas.mpr ⟨e, (mem_deleteWhere.mp he).1, hlive, hsha⟩)
  | putBlob other data =>
    rw [Stmt.write, Index.putBytes] at h
    split at h
    · exact .inl h
    · exact .inl h
  | _ => exact .inl h

theorem blob_write {sha : String} (h : ∃ b ∈ ix.blobs, b.sha256 = sha) : (∃ b ∈ (c.write now ix).blobs, b.sha256 = sha) ∨ c = .deleteBlob sha := by
  cases c with
  | putBlob other data =>
    obtain ⟨b, hb, hsha⟩ := h
    rw [Stmt.write, Index.putBytes]
    split
    · exact .inl ⟨b, hb, hsha⟩
    · exact .inl ⟨b, List.mem_append_left _ hb, hsha⟩
  | deleteBlob other =>
    obtain ⟨b, hb, rfl⟩ := h
    by_cases hsame : b.sha256 = other
    · rw [hsame]
      exact .inr rfl
    · exact .inl ⟨b, mem_deleteWhere.mpr ⟨hb, decide_eq_false hsame⟩, rfl⟩
  | _ => exact .inl h

theorem uniqueKey_write (h : UniqueKey ArtifactMeta.sha256 ix.artifacts) : UniqueKey ArtifactMeta.sha256 (c.write now ix).artifacts := by
  cases c with
  | upsertArtifact row => exact Index.uniqueKey_upsertArtifact h row
  | markArtifacts shas deletedAt => exact Index.uniqueKey_softDeleteArtifacts h shas deletedAt
  | hardDeleteArtifact removed => exact h.deleteWhere
  | putBlob other data =>
    rw [Stmt.write, Index.putBytes]
    split
    · exact h
    · exact h
  | _ => exact h

theorem mem_drop_append {note : Note} {notes new : List Note} {k : ℕ} (hk : k ≤ notes.length) (h : note ∈ notes.drop k ∨ note ∈ new) :
    note ∈ (notes ++ new).drop k := by
  rw [List.drop_append_of_le_length hk]
  exact List.mem_append.mpr h

variable {s : Shared} {g : Ghost}

theorem Knows.apply (h : Knows s g) (hrow : ∀ row, c = .upsertArtifact row → row.isActive = true)
    (hheld : ∀ sha, c = .deleteBlob sha → sha ∉ g.held) : Knows (s.apply now c) g where
  roots := by
    intro sha hsha
    rcases referenced_of_referenced_write hsha with hold | hnew
    · exact (h.roots sha hold).imp_right fun hnote => mem_drop_append h.rootsAt_le (.inl hnote)
    · exact .inr (mem_drop_append h.rootsAt_le (.inr hnew))
  marked := by
    intro sha hsha hactive
    refine mem_drop_append h.markedAt_le ?_
    exact (active_of_active_write hrow hactive).imp_left fun hold => h.marked sha hsha hold
  active := by
    intro sha hsha hinactive
    refine mem_drop_append h.activeAt_le ?_
    by_cases hold : s.ix.Active sha
    · exact .inr ((active_write hrow hold).resolve_left hinactive)
    · exact .inl (h.active sha hsha hold)
  held := by
    intro sha hsha
    refine (blob_write (h.held sha hsha)).resolve_right ?_
    intro hdelete
    exact hheld sha hdelete hsha
  rootsAt_le := h.rootsAt_le.trans (List.length_append ▸ Nat.le_add_right _ _)
  markedAt_le := h.markedAt_le.trans (List.length_append ▸ Nat.le_add_right _ _)
  activeAt_le := h.activeAt_le.trans (List.length_append ▸ Nat.le_add_right _ _)

theorem Knows.learn (h : Knows s g) (hconsistent : Consistent s.ix) (hrow : ∀ row, c = .upsertArtifact row → row.isActive = true)
    (hheld : ∀ sha, c = .deleteBlob sha → sha ∉ g.held) : Knows (s.apply now c) (learn g c (s.reply now)) := by
  have happly : Knows (s.apply now c) g := h.apply hrow hheld
  have hlength : s.notes.length ≤ (s.apply now c).notes.length := List.length_append ▸ Nat.le_add_right _ _
  cases c with
  | readReferences => exact { happly with roots := fun sha hsha => .inl hsha, rootsAt_le := hlength }
  | readMarked =>
    refine { happly with marked := ?_, markedAt_le := hlength }
    intro sha hsha hactive
    obtain ⟨row, hrow, rfl⟩ := List.mem_map.mp hsha
    obtain ⟨hmem, hdeleted⟩ := List.mem_filter.mp hrow
    exact absurd hactive (not_active_of_deleted hconsistent.unique hmem (by simpa using hdeleted))
  | readActive other =>
    refine { happly with active := ?_, activeAt_le := hlength }
    intro sha hsha hinactive
    refine absurd ?_ hinactive
    dsimp only [ConcurrentCollection.learn] at hsha
    split at hsha
    · next hfound =>
      rw [List.mem_singleton.mp hsha]
      exact Index.active_of_getActive hfound
    · cases hsha
  | checkBlob other =>
    rw [ConcurrentCollection.learn]
    split
    · next hfound =>
      refine { happly with held := ?_ }
      intro sha hsha
      rcases List.mem_cons.mp hsha with rfl | hold
      · exact Index.blobExists_iff.mp hfound
      · exact happly.held sha hold
    · exact happly
  | putBlob other data =>
    refine { happly with held := ?_ }
    intro sha hsha
    rcases List.mem_cons.mp hsha with rfl | hold
    · rw [Shared.apply, Stmt.write, Index.putBytes]
      split
      · next hfound => exact Index.blobExists_iff.mp hfound
      · exact ⟨_, List.mem_append_right _ (List.mem_singleton_self _), rfl⟩
    · exact happly.held sha hold
  | upsertArtifact row => exact { happly with held := fun sha hsha => absurd hsha List.not_mem_nil }
  | _ => exact happly

theorem isActive_of_permits (hpermits : permits g c) : ∀ row, c = .upsertArtifact row → row.isActive = true := by
  rintro row rfl
  exact hpermits.1

theorem mem_marked_notes {sha : String} (h : .marked sha ∈ c.notes) : ∃ shas deletedAt, c = .markArtifacts shas deletedAt ∧ sha ∈ shas := by
  cases c with
  | markArtifacts shas deletedAt =>
    obtain ⟨other, hother, hsame⟩ := List.mem_map.mp h
    cases hsame
    exact ⟨shas, deletedAt, rfl, hother⟩
  | _ => simp [Stmt.notes] at h

theorem mem_ingested_notes {sha : String} (h : .ingested sha ∈ c.notes) : ∃ row, c = .upsertArtifact row ∧ row.sha256 = sha := by
  cases c with
  | upsertArtifact row => exact ⟨row, rfl, (Note.ingested.inj (List.mem_singleton.mp h)).symm⟩
  | _ => simp [Stmt.notes] at h

theorem mem_referenced_notes {sha : String} (h : .referenced sha ∈ c.notes) : ∃ ownerType ownerId, c = .addReference ownerType ownerId sha := by
  cases c with
  | addReference ownerType ownerId other =>
    rw [Note.referenced.inj (List.mem_singleton.mp h)]
    exact ⟨ownerType, ownerId, rfl⟩
  | _ => simp [Stmt.notes] at h

theorem Consistent.apply (h : Consistent s.ix) (hknows : Knows s g) (hpermits : permits g c)
    (hmark : ∀ shas deletedAt, c = .markArtifacts shas deletedAt → ∀ sha ∈ shas, Note.referenced sha ∉ s.notes.drop g.rootsAt)
    (hrefer : ∀ ownerType ownerId sha, c = .addReference ownerType ownerId sha → Note.marked sha ∉ s.notes.drop g.activeAt)
    (hdelete : ∀ sha, c = .deleteBlob sha → Note.ingested sha ∉ s.notes.drop g.markedAt) : Consistent (s.apply now c).ix where
  unique := uniqueKey_write h.unique
  present := by
    intro sha hactive
    rcases active_of_active_write (isActive_of_permits hpermits) hactive with hold | hnew
    · refine (blob_write (h.present sha hold)).resolve_right ?_
      rintro rfl
      exact hdelete sha rfl (hknows.marked sha hpermits hold)
    · obtain ⟨row, rfl, rfl⟩ := mem_ingested_notes hnew
      exact hknows.held row.sha256 hpermits.2
  referenced := by
    intro sha hsha
    rcases referenced_of_referenced_write hsha with hold | hnew
    · refine (active_write (isActive_of_permits hpermits) (h.referenced sha hold)).resolve_right ?_
      intro hmarked
      obtain ⟨shas, deletedAt, rfl, hmem⟩ := mem_marked_notes hmarked
      rcases hknows.roots sha hold with hroot | hnote
      · exact hpermits sha hmem hroot
      · exact hmark shas deletedAt rfl sha hmem hnote
    · obtain ⟨ownerType, ownerId, rfl⟩ := mem_referenced_notes hnew
      have hactive : s.ix.Active sha := by
        by_contra hinactive
        exact hrefer ownerType ownerId sha rfl (hknows.active sha hpermits hinactive)
      exact hactive

/-- The statements of a program are permitted. -/
abbrev Follows {α : Type} (Q : Ghost → α → Prop) (g : Ghost) (p : Prog α) : Prop := Program.Obeys permits learn Q g p

section Programs

-- Only the rules of `Obeys` are used here, and it must not be evaluated on the programs.
attribute [local irreducible] Program.Obeys

theorem follows_look {α : Type} (f : Index → DateTime → α) : Follows (fun g' _ => g' = g) g (look f) :=
  Program.obeys_perform trivial fun _ => rfl

theorem follows_looked {α : Type} (f : Index → DateTime → α) : Follows (fun g' a => g' = g ∧ ∃ ix now, f ix now = a) g (look f) :=
  Program.obeys_perform trivial fun r => ⟨rfl, r.ix, r.now, rfl⟩

theorem follows_isoNow : Follows (fun g' _ => g' = g) g isoNow := follows_look _

theorem follows_activeReferenceShas : Follows (fun g' refs => g'.roots = refs) g activeReferenceShas :=
  Program.obeys_perform trivial fun _ => rfl

theorem follows_softDeleteArtifacts {shas : List String} {deletedAt : DateTime} (h : ∀ sha ∈ shas, sha ∉ g.roots) :
    Follows (fun g' _ => g' = g) g (softDeleteArtifacts shas deletedAt) := by
  rw [softDeleteArtifacts]
  split
  · exact Program.obeys_pure rfl
  · exact Program.obeys_perform h fun _ => rfl

theorem follows_resolveSha (text : String) : Follows (fun g' _ => g' = g) g (ArtifactPrograms.resolveSha text) := by
  rw [ArtifactPrograms.resolveSha]
  split
  · exact Program.obeys_pure rfl
  split
  · exact Program.obeys_pure rfl
  · refine (follows_look _).bind ?_
    rintro g' (_ | row) rfl
    · exact Program.obeys_pure rfl
    · exact Program.obeys_pure rfl

theorem follows_resolveActiveSha (text : String) :
    Follows (fun g' result => ∀ sha, result = .ok sha → sha ∈ g'.active) g (ArtifactPrograms.resolveActiveSha text) := by
  rw [ArtifactPrograms.resolveActiveSha]
  refine (follows_resolveSha text).bind ?_
  rintro g' (e | sha) rfl
  · exact Program.obeys_pure fun _ h => nomatch h
  · have hget : Follows (fun g'' row => row.isSome = true → sha ∈ g''.active) g' (ArtifactPrograms.getActive sha) := by
      refine Program.obeys_perform trivial ?_
      intro r hsome
      simp [learn, hsome]
    refine hget.bind ?_
    rintro g'' (_ | row) hfound
    · exact Program.obeys_pure fun _ h => nomatch h
    · refine Program.obeys_pure ?_
      intro other hother
      rw [← Except.ok.inj hother]
      exact hfound rfl

/-- The statements of a program are permitted, whatever the client knows before. -/
def Obedient {α : Type} (p : Prog α) : Prop := ∀ g, Follows (fun _ _ => True) g p

theorem obedient_pure {α : Type} (a : α) : Obedient (pure a) := fun _ => Program.obeys_pure trivial

theorem Obedient.bind {α β : Type} {p : Prog α} {f : α → Prog β} (hp : Obedient p) (hf : ∀ a, Obedient (f a)) : Obedient (p >>= f) :=
  fun g => (hp g).bind fun g' a _ => hf a g'

theorem obedient_look {α : Type} (f : Index → DateTime → α) : Obedient (look f) := fun _ => Program.obeys_perform trivial fun _ => trivial

theorem obedient_statement {c : Stmt} (h : ∀ g, permits g c) : Obedient (statement c) :=
  fun g => Program.obeys_perform (h g) fun _ => trivial

theorem obedient_mapList {α β : Type} {f : α → Prog β} {as : List α} (hf : ∀ a ∈ as, Obedient (f a)) : Obedient (Program.mapList f as) := by
  intro g
  refine Program.Obeys.mono (Program.obeys_mapList (K := fun _ => True) ?_ trivial) fun _ _ _ => trivial
  intro a ha g' _
  exact hf a ha g'

variable {cfg : ArtifactCtlConfig} {sha256 : Bytes → String}

theorem obedient_refAdd (ownerType ownerId refOrSha : String) : Obedient (ArtifactPrograms.refAdd ownerType ownerId refOrSha) := by
  rw [ArtifactPrograms.refAdd]
  split
  · exact obedient_pure _
  split
  · exact obedient_pure _
  · intro g
    refine (follows_resolveActiveSha refOrSha).bind ?_
    rintro g' (e | sha) hactive
    · exact obedient_pure _ g'
    · have hadd : Follows (fun _ _ => True) g' (statement (.addReference ownerType ownerId sha)) :=
        Program.obeys_perform (hactive sha rfl) fun _ => trivial
      exact hadd.bind fun g'' _ _ => obedient_pure _ g''

theorem obedient_resolveActiveSha (text : String) : Obedient (ArtifactPrograms.resolveActiveSha text) :=
  fun _ => (follows_resolveActiveSha text).mono fun _ _ _ => trivial

theorem obedient_aliasSet (name refOrSha : String) (overwrite : Bool) (expiresAt : Option DateTime) :
    Obedient (ArtifactPrograms.aliasSet cfg name refOrSha overwrite expiresAt) := by
  have hset : ∀ sha t, Obedient (do
      statement (.setAlias (strip name) sha t)
      pure (.ok ()) : Prog (Except ArtifactControl.ArtifactCtlError Unit)) :=
    fun sha t => (obedient_statement (c := .setAlias (strip name) sha t) fun _ => trivial).bind fun _ => obedient_pure _
  rw [ArtifactPrograms.aliasSet]
  split
  · exact obedient_pure _
  · refine (obedient_look _).bind fun existing => ?_
    split
    · exact obedient_pure _
    · refine (obedient_resolveActiveSha refOrSha).bind ?_
      rintro (e | sha)
      · exact obedient_pure _
      · dsimp only
        split
        · refine (obedient_look _).bind fun now => ?_
          split
          · exact obedient_pure _
          · exact hset _ _
        · exact hset _ _

theorem obedient_storeData (i : Ingest) : Obedient (ArtifactPrograms.storeData cfg sha256 i) := by
  have hrow : ∀ g, sha256 i.data ∈ g.held → Follows (fun _ _ => True) g (do
      let now ← isoNow
      statement (.upsertArtifact (ingestRow cfg sha256 i now))
      if ← look fun ix _ => ArtifactControl.policyDiffers ix (sha256 i.data) i.isOpaque then pure (.error ArtifactControl.policyError)
      else pure (.ok ()) : Prog (Except ArtifactControl.ArtifactCtlError Unit)) := by
    intro g hheld
    refine follows_isoNow.bind ?_
    rintro g' now rfl
    have hupsert : Follows (fun _ _ => True) g' (statement (.upsertArtifact (ingestRow cfg sha256 i now))) :=
      Program.obeys_perform ⟨isActive_ingestRow i now, hheld⟩ fun _ => trivial
    refine hupsert.bind fun g'' _ _ => (obedient_look _).bind ?_ g''
    intro differs
    split
    · exact obedient_pure _
    · exact obedient_pure _
  have hcheck : ∀ g, Follows (fun g' found => found = true → sha256 i.data ∈ g'.held) g
      (.perform (.checkBlob (sha256 i.data)) fun r => r.ix.blobExists (sha256 i.data)) := by
    intro g
    refine Program.obeys_perform trivial ?_
    intro r hfound
    simp [learn, hfound]
  have hput : ∀ g, Follows (fun g' _ => sha256 i.data ∈ g'.held) g (statement (.putBlob (sha256 i.data) i.data)) :=
    fun _ => Program.obeys_perform trivial fun _ => List.mem_cons_self
  rw [ArtifactPrograms.storeData]
  split
  · exact obedient_pure _
  · refine (obedient_look _).bind fun differs => ?_
    split
    · exact obedient_pure _
    split
    · exact obedient_pure _
    · intro g
      refine (hcheck g).bind ?_
      intro g' found hfound
      dsimp only
      split
      · next hyes => exact hrow g' (hfound hyes)
      · exact (hput g').bind fun g'' _ hheld => hrow g'' hheld

theorem obedient_ingestInternal (i : Ingest) {views : Prog Unit} (hviews : Obedient views) :
    Obedient (ArtifactPrograms.ingestInternal cfg sha256 i views) := by
  refine (obedient_storeData i).bind ?_
  rintro (e | _)
  · exact obedient_pure _
  · refine hviews.bind fun _ => (obedient_look _).bind ?_
    rintro (_ | row)
    · exact obedient_pure _
    · exact obedient_pure _

theorem obedient_storedView (rawSha viewType policyHash : String) : Obedient (ArtifactPrograms.storedView rawSha viewType policyHash) := by
  refine (obedient_look _).bind ?_
  rintro (_ | sha)
  · exact obedient_pure _
  · dsimp only
    split
    · exact obedient_pure _
    · refine (obedient_look _).bind ?_
      rintro (_ | view)
      · exact obedient_pure _
      · refine (obedient_look _).bind fun found => ?_
        split
        · exact obedient_pure _
        · exact obedient_pure _

theorem obedient_readBytes (sha : String) : Obedient (ArtifactPrograms.readBytes sha) := by
  refine (obedient_look _).bind ?_
  rintro (_ | active)
  · exact obedient_pure _
  · refine (obedient_look _).bind ?_
    rintro (_ | row)
    · exact obedient_pure _
    · dsimp only
      split
      · exact obedient_pure _
      · refine (obedient_look _).bind fun found => ?_
        split
        · refine (obedient_look _).bind ?_
          rintro (_ | data)
          · exact obedient_pure _
          · exact obedient_pure _
        · exact obedient_pure _

theorem obedient_ensureView (rawSha : String) (r : ArtifactControl.ViewRequest) :
    Obedient (ArtifactPrograms.ensureView cfg sha256 rawSha r) := by
  rw [ArtifactPrograms.ensureView]
  split
  · exact obedient_pure _
  · refine (obedient_look _).bind ?_
    rintro (_ | raw)
    · exact obedient_pure _
    · dsimp only
      split
      · exact obedient_pure _
      · refine (obedient_storedView _ _ _).bind ?_
        rintro (_ | view)
        · refine (obedient_readBytes rawSha).bind ?_
          rintro (e | data)
          · exact obedient_pure _
          · dsimp only
            split
            · exact obedient_pure _
            · next payload mime _ =>
              refine (obedient_ingestInternal _ (obedient_pure ())).bind ?_
              rintro (e | view)
              · exact obedient_pure _
              · refine (obedient_statement (c := .upsertView _) fun _ => trivial).bind fun _ => ?_
                exact obedient_pure _
        · exact obedient_pure _

theorem obedient_autoGenerateViews (sha : String) (rs : List ArtifactControl.ViewRequest) :
    Obedient (ArtifactPrograms.autoGenerateViews cfg sha256 sha rs) := by
  induction rs with
  | nil => exact obedient_pure _
  | cons r rs ih => exact (obedient_ensureView sha r).bind fun _ => ih

theorem obedient_ingestBytes (i : Ingest) (auto : List ArtifactControl.ViewRequest) :
    Obedient (ArtifactPrograms.ingestBytes cfg sha256 i auto) := by
  rw [ArtifactPrograms.ingestBytes]
  split
  · exact obedient_pure _
  · refine obedient_ingestInternal i ?_
    split
    · exact obedient_pure _
    · exact obedient_autoGenerateViews _ auto

theorem follows_viewShas (rawShas : List String) : Follows (fun g' _ => g' = g) g (ArtifactPrograms.viewShas rawShas) := by
  refine (Program.obeys_mapList (K := fun g' => g' = g) ?_ rfl).bind fun g' listed hsame => Program.obeys_pure hsame
  rintro raw - g' rfl
  exact follows_look _

theorem obedient_softDeleteDerivedViews (shas : List String) (deletedAt : DateTime) :
    Obedient (ArtifactPrograms.softDeleteDerivedViews shas deletedAt) := by
  intro g
  refine (follows_viewShas shas).bind ?_
  rintro g₁ candidates rfl
  have hhide : ∀ raw, Obedient (statement (.hideViews raw deletedAt)) := fun raw => obedient_statement fun _ => trivial
  refine (obedient_mapList (fun raw _ => hhide raw) g₁).bind ?_
  intro g₂ _ _
  refine follows_activeReferenceShas.bind ?_
  rintro g₃ references rfl
  refine (follows_look _).bind ?_
  rintro g₄ aliases rfl
  refine (follows_look _).bind ?_
  rintro g₅ views rfl
  have hmarks : ∀ sha ∈ candidates.filter fun sha => sha ∉ g₅.roots ++ aliases ++ views, sha ∉ g₅.roots := by
    intro sha hsha hroot
    have hfree := of_decide_eq_true (List.mem_filter.mp hsha).2
    exact hfree (List.mem_append_left _ (List.mem_append_left _ hroot))
  exact (follows_softDeleteArtifacts hmarks).bind fun g₆ _ _ => obedient_pure _ g₆

theorem obedient_gc (planOnly : Bool) (keepDays deleteAfterDays : ℕ) : Obedient (ArtifactPrograms.gc planOnly keepDays deleteAfterDays) := by
  intro g
  refine follows_activeReferenceShas.bind ?_
  rintro g₁ references rfl
  refine (follows_look _).bind ?_
  rintro g₂ aliases rfl
  refine (follows_look _).bind ?_
  rintro g₃ (_ | recent) rfl
  · exact obedient_pure _ g₃
  · refine (follows_viewShas _).bind ?_
    rintro g₄ views rfl
    refine (follows_looked _).bind ?_
    rintro g₅ (_ | eligible) ⟨rfl, ix, now, hfound⟩
    · exact obedient_pure _ g₅
    · have hmarks : ∀ sha ∈ eligible, sha ∉ g₅.roots := by
        intro sha hsha hroot
        obtain ⟨before, -, rfl⟩ := Option.map_eq_some_iff.mp hfound
        have hfree := of_decide_eq_true (List.mem_filter.mp hsha).2
        refine hfree (List.mem_append_left _ (List.mem_append_left _ ?_))
        exact List.mem_append_left _ hroot
      dsimp only
      split
      · refine follows_isoNow.bind ?_
        rintro g₆ marking rfl
        refine (follows_softDeleteArtifacts hmarks).bind ?_
        rintro g₇ marked rfl
        exact (obedient_softDeleteDerivedViews eligible marking).bind (fun _ => obedient_pure _) g₇
      · exact obedient_pure _ g₅

theorem follows_purgeBlob {n : BlobCounts} {sha : String} (h : sha ∈ g.marked) :
    Follows (fun g' _ => g' = g) g (ArtifactPrograms.purgeBlob n sha) := by
  rw [ArtifactPrograms.purgeBlob]
  split
  · exact Program.obeys_pure rfl
  · refine (follows_look _).bind ?_
    rintro g' found rfl
    split
    · have hdelete : Follows (fun g'' _ => g'' = g') g' (statement (.deleteBlob sha)) := Program.obeys_perform h fun _ => rfl
      exact hdelete.bind fun g'' _ hsame => Program.obeys_pure hsame
    · exact Program.obeys_pure rfl

theorem follows_purgeBlobs {first second : List String} (hfirst : ∀ sha ∈ first, sha ∈ g.marked)
    (hsecond : ∀ sha ∈ second, sha ∈ g.marked) : Follows (fun _ _ => True) g (ArtifactPrograms.purgeBlobs first second) := by
  have hfold : ∀ shas : List String, (∀ sha ∈ shas, sha ∈ g.marked) → ∀ n,
      Follows (fun g' _ => g' = g) g (Program.foldList ArtifactPrograms.purgeBlob n shas) := by
    intro shas hshas n
    refine Program.obeys_foldList (K := fun g' => g' = g) ?_ rfl n
    rintro sha hsha m g' rfl
    exact follows_purgeBlob (hshas sha hsha)
  refine (hfold first hfirst {}).bind ?_
  rintro g₁ one rfl
  refine (hfold second hsecond _).bind ?_
  rintro g₂ two rfl
  exact obedient_pure _ g₂

theorem follows_markPurgedView {viewShas : List String} {view : ViewRecord} (h : ∀ sha ∈ viewShas, sha ∉ g.roots) :
    Follows (fun g' _ => g' = g) g (ArtifactPrograms.markPurgedView viewShas view) := by
  rw [ArtifactPrograms.markPurgedView]
  split
  · next sha _ =>
    split
    · next hmem =>
      have hmarks : ∀ other ∈ [sha], other ∉ g.roots := by
        intro other hother
        rw [List.mem_singleton.mp hother]
        exact h sha hmem
      have hmark : ∀ t, Follows (fun g' _ => g' = g) g (softDeleteArtifacts [sha] t >>= fun _ => pure ()) :=
        fun t => (follows_softDeleteArtifacts hmarks).bind fun g' _ hsame => Program.obeys_pure hsame
      split
      · next t _ =>
        have hknown : Follows (fun g' a => g' = g ∧ a = t) g (pure t) := Program.obeys_pure ⟨rfl, rfl⟩
        refine hknown.bind ?_
        rintro g' a ⟨rfl, rfl⟩
        exact hmark a
      · refine follows_isoNow.bind ?_
        rintro g' t rfl
        exact hmark t
    · exact Program.obeys_pure rfl
  · exact Program.obeys_pure rfl

theorem obedient_purgeRows (graceDays : ℕ) (views : List ViewRecord) (artifactShas : List String) (report : ArtifactControl.PurgeReport) :
    Obedient (purgeRows graceDays views artifactShas report) := by
  have hviews : ∀ view, Obedient (statement (.hardDeleteView view)) := fun view => obedient_statement fun _ => trivial
  have hrows : ∀ sha, Obedient (statement (.hardDeleteArtifact sha)) := fun sha => obedient_statement fun _ => trivial
  have haliases : ∀ before, Obedient (statement (.hardDeleteAliases before)) := fun before => obedient_statement fun _ => trivial
  have hedges : ∀ before, Obedient (statement (.hardDeleteEdges before)) := fun before => obedient_statement fun _ => trivial
  refine (obedient_mapList fun view _ => hviews view).bind fun _ => (obedient_mapList fun sha _ => hrows sha).bind fun _ => ?_
  refine (obedient_look _).bind ?_
  rintro (_ | aliasesBefore)
  · exact obedient_pure _
  · refine (haliases aliasesBefore).bind fun _ => (obedient_look _).bind ?_
    rintro (_ | edgesBefore)
    · exact obedient_pure _
    · exact (hedges edgesBefore).bind fun _ => obedient_pure _

theorem obedient_purge (graceDays : ℕ) : Obedient (ArtifactPrograms.purge cfg graceDays) := by
  intro g
  refine (follows_look _).bind ?_
  rintro g₁ (_ | views) rfl
  · exact obedient_pure _ g₁
  refine follows_activeReferenceShas.bind ?_
  rintro g₂ references rfl
  refine (follows_look _).bind ?_
  rintro g₃ aliases rfl
  refine (follows_look _).bind ?_
  rintro g₄ (_ | retained) rfl
  · exact obedient_pure _ g₄
  have hviewShas : ∀ sha ∈ unprotectedViewShas views (g₄.roots ++ aliases ++ retained), sha ∉ g₄.roots := by
    intro sha hsha hroot
    have hfree := (List.mem_filter.mp hsha).2
    rw [Bool.and_eq_true, decide_eq_true_eq, decide_eq_true_eq] at hfree
    exact hfree.2 (List.mem_append_left _ (List.mem_append_left _ hroot))
  refine (Program.obeys_mapList (K := fun g' => g' = g₄) ?_ rfl).bind ?_
  · rintro view - g' rfl
    exact follows_markPurgedView hviewShas
  rintro g₅ _ rfl
  have hread : Follows (fun g' found => ∀ rows, found = some rows → ∀ row ∈ rows, row.sha256 ∈ g'.marked) g₅
      (.perform .readMarked fun r => (cutoff r.now graceDays).map r.ix.purgeableArtifacts) := by
    refine Program.obeys_perform trivial ?_
    intro r rows hrows row hrow
    obtain ⟨before, -, rfl⟩ := Option.map_eq_some_iff.mp hrows
    obtain ⟨hmem, hlong⟩ := List.mem_filter.mp hrow
    obtain ⟨t, ht, -⟩ := (Option.any_eq_true _ _).mp hlong
    refine List.mem_map.mpr ⟨row, List.mem_filter.mpr ⟨hmem, ?_⟩, rfl⟩
    rw [ArtifactMeta.isActive, ht]
    rfl
  refine hread.bind ?_
  rintro g₆ (_ | marked) hmarked
  · exact obedient_pure _ g₆
  have hartifacts : ∀ sha ∈ (marked.filter fun r => r.sha256 ∉ g₅.roots ++ aliases ++ retained).map (·.sha256), sha ∈ g₆.marked := by
    intro sha hsha
    obtain ⟨row, hrow, rfl⟩ := List.mem_map.mp hsha
    exact hmarked marked rfl row (List.mem_filter.mp hrow).1
  have hviewBlobs : ∀ (shas kept : List String), (∀ sha ∈ shas, sha ∈ g₆.marked) →
      ∀ sha ∈ (views.filterMap (·.viewSha256)).filter fun sha => decide (sha ∈ kept) && decide (sha ∈ shas), sha ∈ g₆.marked := by
    intro shas kept hshas sha hsha
    have hboth := (List.mem_filter.mp hsha).2
    rw [Bool.and_eq_true, decide_eq_true_eq, decide_eq_true_eq] at hboth
    exact hshas sha hboth.2
  dsimp only
  split
  · exact (follows_purgeBlobs (hviewBlobs _ _ hartifacts) hartifacts).bind fun g₇ _ _ => obedient_purgeRows _ _ _ _ g₇
  · exact (follows_purgeBlobs hartifacts (hviewBlobs _ _ hartifacts)).bind fun g₇ _ _ => obedient_purgeRows _ _ _ _ g₇

theorem obedient_program (op : Op) : Obedient (program cfg sha256 op) := by
  cases op with
  | gc planOnly keepDays deleteAfterDays => exact (obedient_gc planOnly keepDays deleteAfterDays).bind fun _ => obedient_pure _
  | purge graceDays => exact (obedient_purge graceDays).bind fun _ => obedient_pure _
  | refAdd ownerType ownerId refOrSha => exact (obedient_refAdd ownerType ownerId refOrSha).bind fun _ => obedient_pure _
  | aliasSet name refOrSha overwrite expiresAt =>
    exact (obedient_aliasSet name refOrSha overwrite expiresAt).bind fun _ => obedient_pure _
  | ingestBytes i auto => exact (obedient_ingestBytes i auto).bind fun _ => obedient_pure _

end Programs

/-- A client that knows what it found and does what is permitted. -/
def Sane (s : Shared) (l : Client) : Prop := Knows s l.ghost ∧ Follows (fun _ _ => True) l.ghost l.program

theorem knows_start (s : Shared) : Knows s (.start s) where
  roots := fun _ hsha => .inl hsha
  marked := fun _ hsha => absurd hsha List.not_mem_nil
  active := fun _ hsha => absurd hsha List.not_mem_nil
  held := fun _ hsha => absurd hsha List.not_mem_nil
  rootsAt_le := le_refl _
  markedAt_le := Nat.zero_le _
  activeAt_le := Nat.zero_le _

variable {cfg : ArtifactCtlConfig} {sha256 : Bytes → String}
variable {Thread : Type} [DecidableEq Thread] {σ : System Thread Shared Client}

section Begin

attribute [local irreducible] Program.Obeys

omit [DecidableEq Thread] in
theorem keeps_begin (t : Thread) (op : Op) (h : Annotated (fun s => Consistent s.ix) Sane σ) :
    Keeps (fun s => Consistent s.ix) Sane σ t ((clients cfg sha256).begin σ.shared op) :=
  h.move ⟨knows_start σ.shared, obedient_program op _⟩

end Begin

omit [DecidableEq Thread] in
theorem keeps_next (t : Thread) (now : DateTime) (h : Annotated (fun s => Consistent s.ix) Sane σ)
    (hok : Undisturbed σ (.advance t now)) :
    Keeps (fun s => Consistent s.ix) Sane σ t ((clients cfg sha256).next σ.shared (σ.threads t) now) := by
  obtain ⟨hknows, hfollows⟩ := h.threads t
  have hothers := h.threads
  rw [clients]
  dsimp only
  rw [Undisturbed] at hok
  generalize hl : σ.threads t = l at *
  obtain ⟨p, g⟩ := l
  cases p with
  | done result => exact ⟨h.shared, ⟨hknows, hfollows⟩, fun t' _ => hothers t'⟩
  | step c next =>
    obtain ⟨hpermits, hrest⟩ := hfollows
    have hrow := isActive_of_permits hpermits
    have hheld : ∀ t' sha, c = .deleteBlob sha → sha ∉ (σ.threads t').ghost.held := by
      rintro t' sha rfl
      exact hok.2 t'
    have hown : ∀ sha, c = .deleteBlob sha → sha ∉ g.held := by
      intro sha hsha
      have hmine := hheld t sha hsha
      rw [hl] at hmine
      exact hmine
    refine ⟨?_, ⟨?_, hrest _⟩, ?_⟩
    · refine h.shared.apply hknows hpermits ?_ ?_ ?_
      · rintro shas deletedAt rfl
        have hby : UndisturbedBy σ t (.markArtifacts shas deletedAt) := hok
        rw [UndisturbedBy, hl] at hby
        exact hby
      · rintro ownerType ownerId sha rfl
        have hby : UndisturbedBy σ t (.addReference ownerType ownerId sha) := hok
        rw [UndisturbedBy, hl] at hby
        exact hby
      · rintro sha rfl
        have hby : UndisturbedBy σ t (.deleteBlob sha) := hok
        rw [UndisturbedBy, hl] at hby
        exact hby.1
    · exact hknows.learn h.shared hrow hown
    · intro t' _
      exact ⟨(hothers t').1.apply hrow (hheld t'), (hothers t').2⟩

/-- In every interleaving whose clients are undisturbed, what an active edge refers to is active and has its blob, and
so has every active row. -/
theorem collection_safe_when_undisturbed (cfg : ArtifactCtlConfig) (sha256 : Bytes → String) (Thread : Type) [DecidableEq Thread] (start : Index)
    (hstart : Consistent start) (actions : List (Action Thread Op DateTime))
    (h : Guarded (clients cfg sha256).step Undisturbed (initial Thread start) actions) :
    let s := (run (clients cfg sha256).step (initial Thread start) actions).shared
    (∀ sha ∈ s.ix.activeReferenceShas, s.ix.Active sha ∧ s.ix.blobExists sha = true) ∧
      ∀ sha, s.ix.Active sha → s.ix.blobExists sha = true := by
  intro s
  have hinitial : Annotated (fun s => Consistent s.ix) Sane (initial Thread start) :=
    ⟨hstart, fun _ => ⟨knows_start _, trivial⟩⟩
  have hfinal : Consistent s.ix :=
    (annotated_run (fun σ t op hσ _ _ => keeps_begin t op hσ) (fun σ t now hσ hok => keeps_next t now hσ hok) hinitial h).shared
  have hblob : ∀ sha, s.ix.Active sha → s.ix.blobExists sha = true :=
    fun sha hactive => Index.blobExists_iff.mpr (hfinal.present sha hactive)
  exact ⟨fun sha hsha => ⟨hfinal.referenced sha hsha, hblob sha (hfinal.referenced sha hsha)⟩, hblob⟩

/-- A client stores an artifact and refers to it while the other one collects and purges; then it is collected. -/
def referenceWhileCollecting : List (Action Bool Op DateTime) :=
  let inTurns (n : ℕ) (now : DateTime) := (List.replicate n [Action.advance false now, Action.advance true now]).flatten
  [Action.start false (Op.ingestBytes { data := [] } []), Action.start true (Op.gc false 14 7)] ++
    inTurns 8 (onDay 738000 firstDay_lt_endOfTime) ++
    [Action.start true (Op.purge 7), Action.start false (Op.refAdd "session" "s1" emptySha)] ++
    inTurns 8 (onDay 738001 secondDay_lt_endOfTime) ++
    [Action.start true (Op.gc false 14 7)] ++ List.replicate 20 (Action.advance true (onDay 738100)) ++
    [Action.start true (Op.purge 7)] ++ List.replicate 20 (Action.advance true (onDay 738200))

theorem consistent_empty : Consistent {} := by
  refine ⟨UniqueKey.nil, ?_, ?_⟩
  · rintro sha ⟨row, hrow, -⟩
    cases hrow
  · intro sha hsha
    cases hsha

theorem referenceWhileCollecting_safe :
    let s := (run (clients {} fun _ => emptySha).step (initial Bool {}) referenceWhileCollecting).shared
    emptySha ∈ s.ix.activeReferenceShas ∧ s.ix.Active emptySha ∧ s.ix.blobExists emptySha = true := by
  have hguarded : Guarded (clients {} fun _ => emptySha).step Undisturbed (initial Bool {}) referenceWhileCollecting := by
    decide +kernel
  have hreferenced : emptySha ∈ (run (clients {} fun _ => emptySha).step (initial Bool {}) referenceWhileCollecting).shared.ix.activeReferenceShas := by
    decide +kernel
  exact ⟨hreferenced, (collection_safe_when_undisturbed {} (fun _ => emptySha) Bool {} consistent_empty referenceWhileCollecting hguarded).1
    emptySha hreferenced⟩

/-- A reference that another client adds after `gc` read the edges: the artifact is collected. -/
theorem referenced_artifact_collected :
    let actions : List (Action Bool Op DateTime) :=
      [Action.start false (Op.ingestBytes { data := [] } [])] ++ List.replicate 7 (Action.advance false (onDay 738000)) ++
        [Action.start true (Op.gc false 14 7), Action.advance true (onDay 738100),
          Action.start false (Op.refAdd "session" "s1" emptySha)] ++
        List.replicate 2 (Action.advance false (onDay 738100)) ++ List.replicate 5 (Action.advance true (onDay 738100))
    let before := (run (clients {} fun _ => emptySha).step (initial Bool {}) actions.dropLast).shared.ix
    let after := (run (clients {} fun _ => emptySha).step (initial Bool {}) actions).shared.ix
    emptySha ∈ before.activeReferenceShas ∧ before.Active emptySha ∧ emptySha ∈ after.activeReferenceShas ∧ ¬ after.Active emptySha := by
  decide +kernel

end OpenMinion.ConcurrentCollection
