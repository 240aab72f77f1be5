import Mathlib.Data.Fintype.Basic
import OpenMinion.FencedSessionWrites
import OpenMinion.SliceStability

/-!
# The slice cache

`get_slice` looks into the cache, reads the store without a lock and fills the cache; the writers commit first and drop
the cached slices afterwards. A cached slice of the current sequence number is current, or about to be dropped.
-/
namespace OpenMinion.SliceCache
open FencedSessionWrites IsoTimestamps JsonValues KeyedTables PythonText ReadPrograms SessionEventWrites SessionSlices
open SessionStateWrites SessionTables SliceStability TransitionRuns

inductive Activity where
  | idle
  /-- `get_slice`, before `get_session`. -/
  | gettingSession (sessionId purpose : String) (limits : SliceLimits)
  /-- `get_slice`, before `latest_event_seq`. -/
  | gettingSeq (sessionId purpose : String) (limits : SliceLimits) (session : SliceSession)
  | lookingUp (key : SliceKey) (session : SliceSession)
  /-- The reads of a slice that was not cached; after the last one it is stored. -/
  | slicing (key : SliceKey) (reads : ReadProgram SessionDb BaseSlice)
  /-- The reads before a snapshot is written, if one is. -/
  | preparing (reads : ReadProgram SessionDb (Option Write))
  | writing (w : Write)
  /-- Before `_add_artifact_refs`. -/
  | referencing (sessionId : String)
  /-- Before `_invalidate_slice_cache`; `update_summary` appends its event after it. -/
  | invalidating (sessionId : String) (event : Option AppendEvent)
  /-- The loop of `_invalidate_slice_cache` over the stale keys. -/
  | dropping (stale : List SliceKey) (event : Option AppendEvent)

def Activity.isIdle : Activity → Bool
  | .idle => true
  | _ => false

def Activity.drops : Activity → SliceKey → Prop
  | .invalidating sessionId _, key => key.sessionId = sessionId
  | .dropping stale _, key => key ∈ stale
  | _, _ => False

def Activity.slices (sessionId : String) (seq : ℕ) : Activity → Bool
  | .slicing key _ => key.sessionId = sessionId && key.lastEventSeq = seq
  | _ => false

inductive Operation where
  | getSlice (sessionId purpose : String) (limits : SliceLimits)
  | appendEvent (a : AppendEvent)
  | appendTurn (t : AppendTurn)
  | putWorkingState (w : PutWorkingState)
  | updateSummary (u : UpdateSummary)
  | setSummaryBase (b : SetSummaryBase)
  | createSnapshot (c : CreateSnapshot)
  | updateDerivedViews (v : UpdateDerivedViews)

def Operation.begin (rt : Runtime) : Operation → Activity
  | .getSlice sessionId purpose limits => .gettingSession sessionId purpose limits
  | .appendEvent a => .writing (.appendEvent a)
  | .appendTurn t => .writing (.appendTurn t)
  | .putWorkingState w => .writing (.putWorkingState w)
  | .updateSummary u => .writing (.upsertSummary u)
  | .setSummaryBase b => .writing (.setSummaryBase b)
  | .createSnapshot c => .preparing ((snapshotReads rt c).map (Option.map .storeSnapshot))
  | .updateDerivedViews v => .preparing ((derivedViewReads v).map (Option.map .storeDerivedViews))

def afterWrite : Write → Activity
  | .appendEvent a => .referencing a.sessionId
  | .appendTurn t => .referencing t.sessionId
  | .putWorkingState w => .invalidating w.sessionId none
  | .upsertSummary u => .invalidating u.sessionId (some u.event)
  | .setSummaryBase b => .invalidating b.sessionId none
  | .storeSnapshot row => .invalidating row.sessionId none
  | .storeDerivedViews _ => .idle

def invalidates : Write → Bool
  | .storeDerivedViews _ => false
  | _ => true

variable {Thread : Type}

structure SliceStore (Thread : Type) where
  db : SessionDb
  cache : List (SliceKey × BaseSlice)
  threads : Thread → Activity

/-- `raises` is the outcome of a step that may fail for reasons outside the tables: `_add_artifact_refs` raises, or a
slice is stored while `_invalidate_slice_cache` iterates over the dictionary. -/
inductive Action (Thread : Type) where
  | start (t : Thread) (op : Operation)
  | advance (t : Thread) (raises : Bool)

namespace SliceStore

def start (db : SessionDb) : SliceStore Thread := ⟨db, [], fun _ => .idle⟩

variable [DecidableEq Thread]

def setThread (σ : SliceStore Thread) (t : Thread) (act : Activity) : SliceStore Thread :=
  { σ with threads := Function.update σ.threads t act }

def advance (env : SliceEnv) (σ : SliceStore Thread) (t : Thread) (raises : Bool) : SliceStore Thread :=
  match σ.threads t with
  | .idle => σ
  | .gettingSession sessionId purpose limits =>
    match sliceSession σ.db sessionId with
    | some session => σ.setThread t (.gettingSeq sessionId purpose limits session)
    | none => σ.setThread t .idle
  | .gettingSeq sessionId purpose limits session =>
    σ.setThread t (.lookingUp (sliceKey σ.db sessionId purpose limits) session)
  | .lookingUp key session =>
    match lookup Prod.fst key σ.cache with
    | some _ => σ.setThread t .idle
    | none => σ.setThread t (.slicing key (sliceReads env key (some session)))
  | .slicing key (.read next) => σ.setThread t (.slicing key (next σ.db))
  | .slicing key (.done slice) => { σ.setThread t .idle with cache := upsertRow Prod.fst (key, slice) σ.cache }
  | .preparing (.read next) => σ.setThread t (.preparing (next σ.db))
  | .preparing (.done none) => σ.setThread t .idle
  | .preparing (.done (some w)) => σ.setThread t (.writing w)
  | .writing w =>
    match w.apply env.rt σ.db with
    | .ok db => { σ.setThread t (afterWrite w) with db := db }
    | .error _ => σ.setThread t .idle
  | .referencing sessionId => σ.setThread t (if raises then .idle else .invalidating sessionId none)
  | .invalidating sessionId event =>
    let stale := (σ.cache.map Prod.fst).filter fun key => key.sessionId = sessionId
    σ.setThread t (if raises then .idle else .dropping stale event)
  | .dropping (key :: stale) event =>
    { σ.setThread t (.dropping stale event) with cache := deleteWhere (fun entry => entry.1 = key) σ.cache }
  | .dropping [] (some event) => σ.setThread t (.writing (.appendEvent event))
  | .dropping [] none => σ.setThread t .idle

def step (env : SliceEnv) (σ : SliceStore Thread) : Action Thread → SliceStore Thread
  | .start t op => if (σ.threads t).isIdle then σ.setThread t (op.begin env.rt) else σ
  | .advance t raises => σ.advance env t raises

end SliceStore

/-- What `get_slice` serves without interference: the cached slice, or a fresh one. -/
def served (env : SliceEnv) (σ : SliceStore Thread) (sessionId purpose : String) (limits : SliceLimits) :
    Option BaseSlice :=
  (sliceSession σ.db sessionId).map fun session =>
    let key := sliceKey σ.db sessionId purpose limits
    match lookup Prod.fst key σ.cache with
    | some entry => entry.2
    | none => (sliceReads env key (some session)).eval σ.db

def recomputed (env : SliceEnv) (db : SessionDb) (sessionId purpose : String) (limits : SliceLimits) :
    Option BaseSlice :=
  (sliceSession db sessionId).map fun _ => computeSlice env db (sliceKey db sessionId purpose limits)

section Serving

variable [DecidableEq Thread] {env : SliceEnv} {σ : SliceStore Thread} {t : Thread} {act : Activity}

@[simp] theorem threads_setThread (t' : Thread) :
    (σ.setThread t act).threads t' = if t' = t then act else σ.threads t' := Function.update_apply _ _ _ _

end Serving

/-- No thread is between lookup and store of a slice of the session's current events. -/
def NoReader (σ : SliceStore Thread) (sessionId : String) : Prop :=
  ∀ t, (σ.threads t).slices sessionId (latestEventSeq σ.db sessionId) = false

/-- No slice of the session's current events is cached. -/
def NoEntry (σ : SliceStore Thread) (sessionId : String) : Prop :=
  ∀ entry ∈ σ.cache, ¬ (entry.1.sessionId = sessionId ∧ entry.1.lastEventSeq = latestEventSeq σ.db sessionId)

/-- A write that changes a slice without an event has no reader beside it, one that does not invalidate finds nothing
cached, and no slice is stored while the cache is scanned. -/
def UndisturbedStep (σ : SliceStore Thread) (raises : Bool) : Activity → Prop
  | .writing w => (w.changesSilently = true → NoReader σ w.sessionId) ∧ (invalidates w = false → NoEntry σ w.sessionId)
  | .invalidating _ _ => raises = false
  | _ => True

def Undisturbed (σ : SliceStore Thread) : Action Thread → Prop
  | .start _ _ => True
  | .advance t raises => UndisturbedStep σ raises (σ.threads t)

instance [Fintype Thread] (σ : SliceStore Thread) (sessionId : String) : Decidable (NoReader σ sessionId) :=
  inferInstanceAs (Decidable (∀ t, (σ.threads t).slices sessionId (latestEventSeq σ.db sessionId) = false))

instance (σ : SliceStore Thread) (sessionId : String) : Decidable (NoEntry σ sessionId) :=
  inferInstanceAs (Decidable (∀ entry ∈ σ.cache,
    ¬ (entry.1.sessionId = sessionId ∧ entry.1.lastEventSeq = latestEventSeq σ.db sessionId)))

instance [Fintype Thread] (σ : SliceStore Thread) (raises : Bool) : (act : Activity) →
    Decidable (UndisturbedStep σ raises act)
  | .writing w => inferInstanceAs (Decidable ((w.changesSilently = true → NoReader σ w.sessionId) ∧
      (invalidates w = false → NoEntry σ w.sessionId)))
  | .invalidating _ _ => inferInstanceAs (Decidable (raises = false))
  | .idle | .gettingSession .. | .gettingSeq .. | .lookingUp .. | .slicing .. | .preparing _ | .referencing _
  | .dropping .. => isTrue trivial

instance [Fintype Thread] (σ : SliceStore Thread) : (a : Action Thread) → Decidable (Undisturbed σ a)
  | .start _ _ => isTrue trivial
  | .advance t raises => inferInstanceAs (Decidable (UndisturbedStep σ raises (σ.threads t)))

def ActivityOk (env : SliceEnv) (db : SessionDb) : Activity → Prop
  | .gettingSeq sessionId _ _ session => sliceSession db sessionId = some session
  | .lookingUp key session =>
    sliceSession db key.sessionId = some session ∧ key.lastEventSeq ≤ latestEventSeq db key.sessionId
  | .slicing key reads =>
    key.lastEventSeq ≤ latestEventSeq db key.sessionId ∧
      (key.lastEventSeq = latestEventSeq db key.sessionId →
        ReadProgram.Stable (SameSlice key.sessionId) db reads ∧ reads.eval db = computeSlice env db key)
  | _ => True

/-- A cached slice is one of the past, or the current one, or about to be dropped. -/
def EntryOk (env : SliceEnv) (σ : SliceStore Thread) (entry : SliceKey × BaseSlice) : Prop :=
  entry.1.lastEventSeq ≤ latestEventSeq σ.db entry.1.sessionId ∧
    (entry.1.lastEventSeq = latestEventSeq σ.db entry.1.sessionId →
      entry.2 = computeSlice env σ.db entry.1 ∨ ∃ t, (σ.threads t).drops entry.1)

structure Coherent (env : SliceEnv) (σ : SliceStore Thread) : Prop where
  parents : EventParents σ.db
  cached : ∀ entry ∈ σ.cache, EntryOk env σ entry
  working : ∀ t, ActivityOk env σ.db (σ.threads t)

theorem ActivityOk.begin (env : SliceEnv) (db : SessionDb) (op : Operation) :
    ActivityOk env db (op.begin env.rt) := by
  cases op <;> trivial

theorem ActivityOk.write {env : SliceEnv} {w : Write} {db db' : SessionDb} (heffect : WriteEffect w db db')
    (hparents : EventParents db) {act : Activity} (hact : ActivityOk env db act)
    (hquiet : w.changesSilently = true → act.slices w.sessionId (latestEventSeq db w.sessionId) = false) :
    ActivityOk env db' act := by
  cases act with
  | gettingSeq sessionId purpose limits session => exact (heffect.session sessionId).trans hact
  | lookingUp key session =>
    exact ⟨(heffect.session key.sessionId).trans hact.1, hact.2.trans (heffect.latestEventSeq_le _)⟩
  | slicing key reads =>
    obtain ⟨hle, hcurrent⟩ := hact
    refine ⟨hle.trans (heffect.latestEventSeq_le _), fun hseq => ?_⟩
    -- the sequence number did not grow, so it is the one of the reader
    have hlatest : latestEventSeq db' key.sessionId = latestEventSeq db key.sessionId :=
      le_antisymm (hseq ▸ hle) (heffect.latestEventSeq_le _)
    have hsame : SameSlice key.sessionId db db' := by
      refine heffect.sameSlice (.inr hlatest) ?_
      by_contra hdisturbed
      obtain ⟨hsid, hsilent⟩ := not_or.mp hdisturbed
      have hfree := hquiet (by simpa using hsilent)
      rw [← not_ne_iff.mp hsid, ← hlatest, ← hseq] at hfree
      simp [Activity.slices] at hfree
    obtain ⟨hstable, heval⟩ := hcurrent (hseq.trans hlatest)
    refine ⟨hstable.mono (SameSlice.trans _) hsame, ?_⟩
    rw [hstable.eval_eq (.refl _ db) hsame, heval, computeSlice_eq hparents hsame]
  | _ => trivial

theorem drops_afterWrite {w : Write} {key : SliceKey} (hsilent : w.changesSilently = true)
    (hinvalidates : invalidates w = true) (hsid : key.sessionId = w.sessionId) : (afterWrite w).drops key := by
  cases w with
  | putWorkingState w => exact hsid
  | upsertSummary u => exact hsid
  | storeSnapshot row => exact hsid
  | storeDerivedViews row => cases hinvalidates
  | _ => cases hsilent

namespace Coherent

variable {env : SliceEnv} {σ : SliceStore Thread}

theorem start (env : SliceEnv) {db : SessionDb} (h : EventParents db) :
    Coherent env (SliceStore.start db : SliceStore Thread) where
  parents := h
  cached := by simp [SliceStore.start]
  working _ := trivial

theorem served_eq (h : Coherent env σ) (hidle : ∀ t, (σ.threads t).isIdle = true) (sessionId purpose : String)
    (limits : SliceLimits) : served env σ sessionId purpose limits = recomputed env σ.db sessionId purpose limits := by
  rw [served, recomputed]
  cases hsession : sliceSession σ.db sessionId with
  | none => rfl
  | some session =>
    simp only [Option.map_some]
    congr 1
    split
    · next entry hentry =>
      obtain ⟨hmem, hkey⟩ := lookup_some hentry
      obtain ⟨-, hcurrent⟩ := h.cached entry hmem
      rw [hkey] at hcurrent
      rcases hcurrent rfl with hslice | ⟨t, ht⟩
      · exact hslice
      · have hthread := hidle t
        cases hact : σ.threads t with
        | idle =>
          rw [hact] at ht
          exact ht.elim
        | _ =>
          rw [hact] at hthread
          cases hthread
    · rw [computeSlice]
      simp only [sliceKey, hsession]

variable [DecidableEq Thread] {t : Thread} {act : Activity}

theorem setThread (h : Coherent env σ) (hact : ActivityOk env σ.db act)
    (hdrops : ∀ entry ∈ σ.cache, (σ.threads t).drops entry.1 → act.drops entry.1) :
    Coherent env (σ.setThread t act) where
  parents := h.parents
  cached := by
    intro entry hentry
    obtain ⟨hle, hcurrent⟩ := h.cached entry hentry
    refine ⟨hle, fun hseq => (hcurrent hseq).imp_right ?_⟩
    rintro ⟨t', ht'⟩
    by_cases ht : t' = t
    · subst ht
      exact ⟨t', by simpa [threads_setThread] using hdrops entry hentry ht'⟩
    · exact ⟨t', by simpa [threads_setThread, ht] using ht'⟩
  working := by
    intro t'
    rw [threads_setThread]
    split
    · exact hact
    · exact h.working t'

theorem store (h : Coherent env σ) {key : SliceKey} {slice : BaseSlice} (ht : σ.threads t = .slicing key (.done slice)) :
    Coherent env { σ.setThread t .idle with cache := upsertRow Prod.fst (key, slice) σ.cache } := by
  have hidle : Coherent env (σ.setThread t .idle) := by
    refine h.setThread trivial fun entry _ hdrops => ?_
    rw [ht] at hdrops
    exact hdrops
  refine ⟨h.parents, fun entry hentry => ?_, hidle.working⟩
  rcases mem_upsertRow hentry with rfl | hold
  · have hreader := h.working t
    rw [ht] at hreader
    exact ⟨hreader.1, fun hseq => .inl (hreader.2 hseq).2⟩
  · exact hidle.cached entry hold

theorem drop (h : Coherent env σ) {key : SliceKey} {stale : List SliceKey} {event : Option AppendEvent}
    (ht : σ.threads t = .dropping (key :: stale) event) :
    Coherent env { σ.setThread t (.dropping stale event) with
      cache := deleteWhere (fun entry => entry.1 = key) σ.cache } := by
  have hrest : Coherent env
      ({ σ with cache := deleteWhere (fun entry => entry.1 = key) σ.cache }.setThread t (.dropping stale event)) := by
    refine setThread ⟨h.parents, ?_, h.working⟩ trivial ?_
    · intro entry hentry
      exact h.cached entry (mem_deleteWhere.mp hentry).1
    · intro entry hentry hdrops
      have hdrops : entry.1 ∈ key :: stale := by
        rw [ht] at hdrops
        exact hdrops
      have hne : entry.1 ≠ key := by simpa using (mem_deleteWhere.mp hentry).2
      exact (List.mem_cons.mp hdrops).resolve_left hne
  exact hrest

theorem write (h : Coherent env σ) {w : Write} {db : SessionDb} (ht : σ.threads t = .writing w)
    (hreader : w.changesSilently = true → NoReader σ w.sessionId)
    (hentry : invalidates w = false → NoEntry σ w.sessionId) (heffect : WriteEffect w σ.db db) :
    Coherent env { σ.setThread t (afterWrite w) with db := db } := by
  have hkept : ∀ key : SliceKey, (∃ t', (σ.threads t').drops key) →
      ∃ t', ((σ.setThread t (afterWrite w)).threads t').drops key := by
    rintro key ⟨t', ht'⟩
    have hne : t' ≠ t := by
      rintro rfl
      rw [ht] at ht'
      exact ht'
    exact ⟨t', by simpa [threads_setThread, hne] using ht'⟩
  refine ⟨heffect.eventParents h.parents, fun entry hmem => ?_, fun t' => ?_⟩
  · obtain ⟨hle, hcurrent⟩ := h.cached entry hmem
    refine ⟨hle.trans (heffect.latestEventSeq_le _), fun hseq => ?_⟩
    have hlatest : latestEventSeq db entry.1.sessionId = latestEventSeq σ.db entry.1.sessionId :=
      le_antisymm (hseq ▸ hle) (heffect.latestEventSeq_le _)
    by_cases hsilent : entry.1.sessionId ≠ w.sessionId ∨ w.changesSilently = false
    · have hsame := heffect.sameSlice (.inr hlatest) hsilent
      refine (hcurrent (hseq.trans hlatest)).imp ?_ (hkept entry.1)
      intro hslice
      rw [hslice, computeSlice_eq h.parents hsame]
    · obtain ⟨hsid, hsilent⟩ := not_or.mp hsilent
      have hsid := not_ne_iff.mp hsid
      cases hinvalidates : invalidates w with
      | false => exact absurd ⟨hsid, hsid ▸ hseq.trans hlatest⟩ (hentry hinvalidates entry hmem)
      | true =>
        refine .inr ⟨t, ?_⟩
        rw [threads_setThread, if_pos rfl]
        exact drops_afterWrite (by simpa using hsilent) hinvalidates hsid
  · simp only [threads_setThread]
    split
    · cases w <;> trivial
    · exact (h.working t').write heffect h.parents fun hsilent => hreader hsilent t'

theorem move (h : Coherent env σ) (hact : ActivityOk env σ.db act) (hdrops : ∀ key, ¬ (σ.threads t).drops key) :
    Coherent env (σ.setThread t act) :=
  h.setThread hact fun entry _ hd => absurd hd (hdrops entry.1)

theorem advance (h : Coherent env σ) {raises : Bool} (hok : UndisturbedStep σ raises (σ.threads t)) :
    Coherent env (σ.advance env t raises) := by
  have hact := h.working t
  rw [SliceStore.advance]
  cases ht : σ.threads t with
  | idle => exact h
  | gettingSession sessionId purpose limits =>
    simp only
    split
    · next session hsession => exact h.move hsession (by simp [ht, Activity.drops])
    · exact h.move trivial (by simp [ht, Activity.drops])
  | gettingSeq sessionId purpose limits session =>
    rw [ht] at hact
    exact h.move ⟨hact, le_rfl⟩ (by simp [ht, Activity.drops])
  | lookingUp key session =>
    rw [ht] at hact
    simp only
    split
    · exact h.move trivial (by simp [ht, Activity.drops])
    · refine h.move ⟨hact.2, fun _ => ⟨?_, ?_⟩⟩ (by simp [ht, Activity.drops])
      · exact sliceReads_steady env key _ σ.db (h.parents.stored _)
      · rw [computeSlice, hact.1]
  | slicing key reads =>
    cases reads with
    | done slice => exact h.store ht
    | read next =>
      rw [ht] at hact
      refine h.move ⟨hact.1, fun hseq => ?_⟩ (by simp [ht, Activity.drops])
      obtain ⟨hstable, heval⟩ := hact.2 hseq
      exact ⟨hstable.next (.refl _ _), heval⟩
  | preparing reads =>
    cases reads with
    | read next => exact h.move trivial (by simp [ht, Activity.drops])
    | done w =>
      cases w with
      | none => exact h.move trivial (by simp [ht, Activity.drops])
      | some w => exact h.move trivial (by simp [ht, Activity.drops])
  | writing w =>
    rw [ht] at hok
    simp only
    split
    · next db happly => exact h.write ht hok.1 hok.2 (Write.apply_effect happly)
    · exact h.move trivial (by simp [ht, Activity.drops])
  | referencing sessionId =>
    refine h.move ?_ (by simp [ht, Activity.drops])
    split <;> trivial
  | invalidating sessionId event =>
    rw [ht] at hok
    have hraises : raises = false := hok
    subst hraises
    refine h.setThread trivial fun entry hentry hdrops => ?_
    rw [ht] at hdrops
    have hsid : entry.1.sessionId = sessionId := hdrops
    exact List.mem_filter.mpr ⟨List.mem_map_of_mem hentry, decide_eq_true hsid⟩
  | dropping stale event =>
    cases stale with
    | cons key stale => exact h.drop ht
    | nil =>
      cases event with
      | none => exact h.move trivial (by simp [ht, Activity.drops])
      | some event => exact h.move trivial (by simp [ht, Activity.drops])

theorem step (h : Coherent env σ) (a : Action Thread) (hok : Undisturbed σ a) : Coherent env (σ.step env a) := by
  cases a with
  | start t op =>
    rw [SliceStore.step]
    split
    · next hidle =>
      refine h.move (.begin env σ.db op) ?_
      cases ht : σ.threads t with
      | idle => simp [Activity.drops]
      | _ =>
        rw [ht] at hidle
        cases hidle
    · exact h
  | advance t raises => exact h.advance hok

end Coherent

/-- In every run whose schedule is undisturbed, and in every state of it without an
operation in progress, `get_slice` serves the slice of the current tables. -/
theorem sliceCache_coherent_when_undisturbed [DecidableEq Thread] (env : SliceEnv) (db : SessionDb)
    (hparents : EventParents db) (actions : List (Action Thread))
    (h : Guarded (SliceStore.step env) Undisturbed (SliceStore.start db) actions)
    (hidle : ∀ t, ((run (SliceStore.step env) (SliceStore.start db) actions).threads t).isIdle = true)
    (sessionId purpose : String) (limits : SliceLimits) :
    served env (run (SliceStore.step env) (SliceStore.start db) actions) sessionId purpose limits =
      recomputed env (run (SliceStore.step env) (SliceStore.start db) actions).db sessionId purpose limits := by
  have hcoherent := h.invariant (fun _ a hσ hok => Coherent.step hσ a hok) (Coherent.start env hparents)
  exact hcoherent.served_eq hidle sessionId purpose limits

def plainSliceEnv : SliceEnv where
  rt := asciiRuntime
  dumps _ := "null"
  dumpsSorted _ := "null"
  taskPlan _ := .null
  stableHash _ _ _ := ""

def openedDb : SessionDb :=
  committed {} (insertSession {} { sessionId := some "s", freshId := "", now := turnStart })

def advances (t : Bool) (steps : ℕ) : List (Action Bool) := List.replicate steps (.advance t false)

def firstTurn : AppendTurn := { lateTurn with content := "hello" }

def secondTurn : AppendTurn := { lateTurn with content := "again", turnId := "t2", freshEventId := "e2" }

def newState : PutWorkingState where
  sessionId := "s"
  stateInline := some [("k", .int 1)]
  now := turnStart

/-- A turn is appended while a slice is read; the next slice is cached when the working
state is written. -/
def turnDuringSlice : List (Action Bool) :=
  Action.start false (.appendTurn firstTurn) :: advances false 4 ++
  Action.start true (.getSlice "s" "decide" {}) :: advances true 8 ++
  Action.start false (.appendTurn secondTurn) :: advances false 4 ++ advances true 12 ++
  Action.start true (.getSlice "s" "decide" {}) :: advances true 20 ++
  Action.start false (.putWorkingState newState) :: advances false 5

theorem sliceCache_coherent_turnDuringSlice :
    Guarded (SliceStore.step plainSliceEnv) Undisturbed (SliceStore.start openedDb) turnDuringSlice ∧
    (served plainSliceEnv (run (SliceStore.step plainSliceEnv) (SliceStore.start openedDb) turnDuringSlice)
      "s" "decide" {}).map BaseSlice.activeState = some [("k", .int 1)] ∧
    served plainSliceEnv (run (SliceStore.step plainSliceEnv) (SliceStore.start openedDb) turnDuringSlice)
      "s" "decide" {} =
    recomputed plainSliceEnv (run (SliceStore.step plainSliceEnv) (SliceStore.start openedDb) turnDuringSlice).db
      "s" "decide" {} := by
  have hguarded : Guarded (SliceStore.step plainSliceEnv) Undisturbed (SliceStore.start openedDb) turnDuringSlice := by
    decide +kernel
  have hparents : EventParents openedDb := by
    intro e he
    cases he
  refine ⟨hguarded, by decide +kernel, ?_⟩
  exact sliceCache_coherent_when_undisturbed plainSliceEnv openedDb hparents turnDuringSlice hguarded
    (by decide +kernel) "s" "decide" {}

/-- `update_derived_views` runs after the working state was put into a cached slice. -/
def derivedAfterSlice : List (Action Bool) :=
  Action.start false (.appendTurn firstTurn) :: advances false 4 ++
  Action.start false (.putWorkingState newState) :: advances false 3 ++
  Action.start true (.getSlice "s" "decide" {}) :: advances true 20 ++
  Action.start false (.updateDerivedViews { sessionId := "s", snapshotId := "v1", now := turnStart }) :: advances false 10

/-- The snapshot of `update_derived_views` has an empty state, and the cache still serves the
working state. -/
theorem sliceCache_not_coherent :
    ¬ ∀ (actions : List (Action Bool)) (sessionId purpose : String) (limits : SliceLimits),
      (∀ t, ((run (SliceStore.step plainSliceEnv) (SliceStore.start openedDb) actions).threads t).isIdle = true) →
      served plainSliceEnv (run (SliceStore.step plainSliceEnv) (SliceStore.start openedDb) actions)
        sessionId purpose limits =
      recomputed plainSliceEnv (run (SliceStore.step plainSliceEnv) (SliceStore.start openedDb) actions).db
        sessionId purpose limits := by
  intro hcoherent
  have heq := hcoherent derivedAfterSlice "s" "decide" {} (by decide +kernel)
  have hserved : (served plainSliceEnv (run (SliceStore.step plainSliceEnv) (SliceStore.start openedDb)
      derivedAfterSlice) "s" "decide" {}).map BaseSlice.activeState = some [("k", .int 1)] := by decide +kernel
  have hrecomputed : (recomputed plainSliceEnv (run (SliceStore.step plainSliceEnv) (SliceStore.start openedDb)
      derivedAfterSlice).db "s" "decide" {}).map BaseSlice.activeState = some [] := by decide +kernel
  rw [heq, hrecomputed] at hserved
  exact absurd hserved (by decide)

end OpenMinion.SliceCache
