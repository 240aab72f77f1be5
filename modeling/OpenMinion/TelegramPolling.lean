import OpenMinion.TelegramUpdates
import OpenMinion.TransitionRuns

/-!
# Telegram polling

The runner stops at the first update of a batch that it fails to process and commits the offset up to the last one that
it has processed. An update without an envelope fails at every poll.
-/
namespace OpenMinion.TelegramPolling
open JsonValues TelegramUpdates TransitionRuns

structure PollingConfig where
  limit : ℤ
  persistOffset : Bool
  dropPendingOnStart : Bool

inductive Event where
  | processed (updateId : ℤ)
  /-- The processing of an update with an envelope raised. -/
  | failed (updateId : ℤ)
  /-- The update has no envelope. -/
  | rejected (updateId : ℤ)
  deriving DecidableEq

structure Runner where
  lastUpdateId : ℤ := 0
  initialized : Bool := false
  recentIds : List ℤ := []
  deriving DecidableEq

/-- The runner, the number in its state store, the updates that have arrived, and what the runner did so far. -/
structure World where
  runner : Runner := {}
  stored : Option ℤ
  arrived : List Update := []
  events : List Event := []
  deriving DecidableEq

/-- What the environment decides at a call of `run_once`. -/
structure Poll where
  /-- The number of updates that the API returns, if there are so many. -/
  available : ℕ
  raises : ℤ → Bool
  storeFails : Bool

inductive Action where
  | arrive (update : Update)
  | runOnce (poll : Poll)
  /-- `get_updates` raises. -/
  | unreachable

def recentIdsMaxSize : ℕ := 1000

/-- `RecentUpdateIds.add`. -/
def addRecentId (items : List ℤ) (updateId : ℤ) : List ℤ :=
  if updateId ∈ items then items.erase updateId ++ [updateId]
  else if recentIdsMaxSize < items.length + 1 then (items ++ [updateId]).tail
  else items ++ [updateId]

section Runs

variable (lib : ValueLibrary) (cfg : PollingConfig)

/-- `_process_update`: after the envelope the environment decides whether anything raises. -/
def processUpdate (raises : ℤ → Bool) (updateId : ℤ) (update : Dict) : Event :=
  match extractEnvelope lib update with
  | none => .rejected updateId
  | some _ => if raises updateId then .failed updateId else .processed updateId

structure Loop where
  committed : ℤ
  recentIds : List ℤ
  events : List Event

/-- The loop of `run_once` over the updates of a batch. -/
def pollLoop (raises : ℤ → Bool) : List Dict → Loop → Loop
  | [], l => l
  | update :: rest, l =>
    match extractUpdateId lib update with
    | none => pollLoop raises rest l
    | some updateId =>
      if updateId ∈ l.recentIds then pollLoop raises rest { l with committed := max l.committed updateId }
      else match processUpdate lib raises updateId update with
        | .processed _ =>
          pollLoop raises rest
            ⟨max l.committed updateId, addRecentId l.recentIds updateId, l.events ++ [Event.processed updateId]⟩
        | event => { l with events := l.events ++ [event] }

/-- `getUpdates`: the first updates from the offset on. -/
def getUpdates (arrived : List Update) (offset : ℤ) (available : ℕ) : List Update :=
  (arrived.filter fun update => offset ≤ update.updateId).take (min available (max 1 (min 100 cfg.limit)).toNat)

def commitOffset (w : World) (lastUpdateId : ℤ) (storeFails : Bool) : World :=
  { w with
    runner := { w.runner with lastUpdateId := lastUpdateId }
    stored := if cfg.persistOffset && !storeFails then w.stored.map fun _ => lastUpdateId else w.stored }

/-- `TelegramPollingRunner.initialize`; dropping the pending updates commits the newest of them. -/
def initializeRunner (w : World) : World :=
  if w.runner.initialized then w
  else
    let loaded := if cfg.persistOffset then w.stored.getD 0 else 0
    let w := { w with runner := { w.runner with lastUpdateId := loaded, initialized := true } }
    match (if cfg.dropPendingOnStart then w.arrived.getLast? else none) with
    | some newest => if 0 < newest.updateId then commitOffset cfg w newest.updateId false else w
    | none => w

def runOnce (w : World) (poll : Poll) : World :=
  let w := initializeRunner cfg w
  let updates := getUpdates cfg w.arrived (w.runner.lastUpdateId + 1) poll.available
  let loop := pollLoop lib poll.raises (updates.map Update.toDict) ⟨w.runner.lastUpdateId, w.runner.recentIds, w.events⟩
  let w' := { w with runner := { w.runner with recentIds := loop.recentIds }, events := loop.events }
  if w.runner.lastUpdateId < loop.committed then commitOffset cfg w' loop.committed poll.storeFails else w'

def step (w : World) : Action → World
  | .arrive update => if ∀ earlier ∈ w.arrived, earlier.updateId < update.updateId
      then { w with arrived := w.arrived ++ [update] } else w
  | .runOnce poll => runOnce lib cfg w poll
  | .unreachable => initializeRunner cfg w

def start (stored : Option ℤ) : World := { stored := stored }

def untroubled : Poll := ⟨100, fun _ => false, false⟩

def Pending (w : World) (update : Update) : Prop := update ∈ w.arrived ∧ w.runner.lastUpdateId < update.updateId

/-- No update without an envelope waits before this one. -/
def Unblocked (w : World) (update : Update) : Prop :=
  ∀ earlier, Pending w earlier → earlier.updateId < update.updateId → earlier.acceptable lib = true

variable {lib cfg} {raises : ℤ → Bool}

def succeeds (lib : ValueLibrary) (raises : ℤ → Bool) (update : Update) : Bool :=
  update.acceptable lib && !raises update.updateId

theorem processUpdate_of_succeeds {update : Update} (h : succeeds lib raises update = true) :
    processUpdate lib raises update.updateId update.toDict = .processed update.updateId := by
  rw [succeeds, Bool.and_eq_true, Bool.not_eq_true', Update.acceptable] at h
  obtain ⟨envelope, henvelope⟩ := Option.isSome_iff_exists.mp h.1
  rw [processUpdate, henvelope]
  dsimp only
  rw [h.2, if_neg Bool.false_ne_true]

theorem processUpdate_of_not_succeeds {update : Update} (h : succeeds lib raises update = false) :
    processUpdate lib raises update.updateId update.toDict = .failed update.updateId ∨
      processUpdate lib raises update.updateId update.toDict = .rejected update.updateId := by
  rw [processUpdate]
  rw [succeeds, Update.acceptable] at h
  cases henvelope : extractEnvelope lib update.toDict with
  | none => exact .inr rfl
  | some envelope =>
    rw [henvelope, Option.isSome_some, Bool.true_and, Bool.not_eq_false'] at h
    dsimp only
    rw [h, if_pos rfl]
    exact .inl rfl

theorem mem_addRecentId {items : List ℤ} {updateId x : ℤ} (h : x ∈ addRecentId items updateId) : x ∈ items ∨ x = updateId := by
  rw [addRecentId] at h
  split at h
  · rcases List.mem_append.mp h with hold | hnew
    · exact .inl (List.mem_of_mem_erase hold)
    · exact .inr (List.mem_singleton.mp hnew)
  · have hall : x ∈ items ++ [updateId] := by
      split at h
      · exact List.mem_of_mem_tail h
      · exact h
    simpa using hall

theorem mem_addRecentIds {updates : List Update} {items : List ℤ} {x : ℤ}
    (h : x ∈ updates.foldl (fun items update => addRecentId items update.updateId) items) :
    x ∈ items ∨ ∃ update ∈ updates, update.updateId = x := by
  induction updates generalizing items with
  | nil => exact .inl h
  | cons update updates ih =>
    rcases ih h with hitems | ⟨other, hother, hx⟩
    · rcases mem_addRecentId hitems with hold | hnew
      · exact .inl hold
      · exact .inr ⟨update, List.mem_cons_self, hnew.symm⟩
    · exact .inr ⟨other, List.mem_cons_of_mem update hother, hx⟩

theorem pollLoop_spec {batch : List Update} (hsorted : batch.Pairwise fun a b => a.updateId < b.updateId) {l : Loop}
    (habove : ∀ update ∈ batch, l.committed < update.updateId) (hrecent : ∀ x ∈ l.recentIds, x ≤ l.committed) :
    pollLoop lib raises (batch.map Update.toDict) l =
      ⟨((batch.takeWhile (succeeds lib raises)).getLast?.map (·.updateId)).getD l.committed,
        (batch.takeWhile (succeeds lib raises)).foldl (fun items update => addRecentId items update.updateId) l.recentIds,
        l.events ++ (batch.takeWhile (succeeds lib raises)).map (fun update => Event.processed update.updateId) ++
          ((batch.dropWhile (succeeds lib raises)).head?.map fun update =>
            processUpdate lib raises update.updateId update.toDict).toList⟩ := by
  induction batch generalizing l with
  | nil => simp [pollLoop]
  | cons update batch ih =>
    have hlt := habove update List.mem_cons_self
    have hnew : update.updateId ∉ l.recentIds := by
      intro hmem
      have hle := hrecent _ hmem
      omega
    rw [List.map_cons, pollLoop, Update.extractUpdateId_toDict]
    dsimp only
    rw [if_neg hnew]
    cases hsucceeds : succeeds lib raises update with
    | true =>
      have hmax : max l.committed update.updateId = update.updateId := by omega
      rw [processUpdate_of_succeeds hsucceeds, hmax]
      dsimp only
      rw [ih (List.pairwise_cons.mp hsorted).2 (fun other hother => (List.pairwise_cons.mp hsorted).1 other hother)]
      · rw [List.takeWhile_cons_of_pos hsucceeds, List.dropWhile_cons_of_pos hsucceeds, List.map_cons, List.foldl_cons]
        simp [List.getLast?_cons]
      · intro x hx
        rcases mem_addRecentId hx with hold | rfl
        · have hle := hrecent x hold
          dsimp only
          omega
        · exact Int.le_refl _
    | false =>
      have hstops : ¬ succeeds lib raises update = true := by simp [hsucceeds]
      rw [List.takeWhile_cons_of_neg hstops, List.dropWhile_cons_of_neg hstops]
      rcases processUpdate_of_not_succeeds hsucceeds with hfailed | hrejected
      · simp [hfailed]
      · simp [hrejected]

/-- What a call of an initialized runner does: some updates in front of the pending ones are processed, and the next one
may fail. -/
structure Polled (lib : ValueLibrary) (cfg : PollingConfig) (raises : ℤ → Bool) (w w' : World) (done rest : List Update) : Prop where
  pending : (w.arrived.filter fun update => w.runner.lastUpdateId < update.updateId) = done ++ rest
  succeed : ∀ update ∈ done, succeeds lib raises update = true
  last : w'.runner.lastUpdateId = (done.getLast?.map (·.updateId)).getD w.runner.lastUpdateId
  events : ∃ failure, w'.events = w.events ++ done.map (fun update => Event.processed update.updateId) ++ failure ∧
    ∀ event ∈ failure, ∃ update ∈ rest, event = .failed update.updateId ∨ event = .rejected update.updateId
  recent : ∀ x ∈ w'.runner.recentIds, x ∈ w.runner.recentIds ∨ ∃ update ∈ done, update.updateId = x
  arrived : w'.arrived = w.arrived
  initialized : w'.runner.initialized = true
  stored : ∀ x ∈ w'.stored, x ∈ w.stored ∨ x = w'.runner.lastUpdateId

namespace Polled

variable {w w' : World} {done rest : List Update}

theorem mem_pending (h : Polled lib cfg raises w w' done rest) {update : Update} :
    update ∈ done ∨ update ∈ rest ↔ Pending w update := by
  rw [← List.mem_append, ← h.pending, List.mem_filter, decide_eq_true_eq, Pending]

theorem sorted (h : Polled lib cfg raises w w' done rest) (hsorted : w.arrived.Pairwise fun a b => a.updateId < b.updateId) :
    (done ++ rest).Pairwise fun a b => a.updateId < b.updateId := by
  rw [← h.pending]
  exact hsorted.filter _

theorem parts (h : Polled lib cfg raises w w' done rest) (hsorted : w.arrived.Pairwise fun a b => a.updateId < b.updateId) :
    w.runner.lastUpdateId ≤ w'.runner.lastUpdateId ∧ (∀ update ∈ done, update.updateId ≤ w'.runner.lastUpdateId) ∧
      ∀ update ∈ rest, w'.runner.lastUpdateId < update.updateId := by
  have hordered := h.sorted hsorted
  have hlast := h.last
  have habove : ∀ update, update ∈ done ∨ update ∈ rest → w.runner.lastUpdateId < update.updateId :=
    fun update hmem => (h.mem_pending.mp hmem).2
  rcases List.eq_nil_or_concat done with rfl | ⟨front, newest, rfl⟩
  · rw [List.getLast?_nil, Option.map_none, Option.getD_none] at hlast
    rw [hlast]
    exact ⟨Int.le_refl _, nofun, fun update hmem => habove update (.inr hmem)⟩
  · rw [List.concat_eq_append, List.getLast?_append_of_ne_nil _ (List.cons_ne_nil _ _), List.getLast?_singleton, Option.map_some,
      Option.getD_some] at hlast
    rw [hlast]
    rw [List.concat_eq_append, List.append_assoc, List.pairwise_append] at hordered
    obtain ⟨-, hback, hacross⟩ := hordered
    refine ⟨Int.le_of_lt (habove newest (.inl (by simp))), ?_, ?_⟩
    · intro update hmem
      rw [List.concat_eq_append, List.mem_append, List.mem_singleton] at hmem
      rcases hmem with hfront | rfl
      · exact Int.le_of_lt (hacross update hfront newest List.mem_cons_self)
      · exact Int.le_refl _
    · intro update hmem
      exact (List.pairwise_cons.mp hback).1 update hmem

theorem mem_done (h : Polled lib cfg raises w w' done rest) (hsorted : w.arrived.Pairwise fun a b => a.updateId < b.updateId)
    {update : Update} (hpending : Pending w update) (hle : update.updateId ≤ w'.runner.lastUpdateId) : update ∈ done := by
  rcases h.mem_pending.mpr hpending with hdone | hrest
  · exact hdone
  · have hlt := (h.parts hsorted).2.2 update hrest
    omega

theorem processed (h : Polled lib cfg raises w w' done rest) {updateId : ℤ} :
    Event.processed updateId ∈ w'.events ↔ Event.processed updateId ∈ w.events ∨ ∃ update ∈ done, update.updateId = updateId := by
  obtain ⟨failure, hevents, hfailure⟩ := h.events
  have hnot : Event.processed updateId ∉ failure := by
    intro hmem
    obtain ⟨update, -, hfailed | hrejected⟩ := hfailure _ hmem
    · cases hfailed
    · cases hrejected
  rw [hevents, List.mem_append, List.mem_append, List.mem_map, or_iff_left hnot]
  simp

end Polled

theorem polled_runOnce {w : World} (hinit : w.runner.initialized = true)
    (hsorted : w.arrived.Pairwise fun a b => a.updateId < b.updateId)
    (hrecent : ∀ x ∈ w.runner.recentIds, x ≤ w.runner.lastUpdateId) (poll : Poll) :
    ∃ done rest, Polled lib cfg poll.raises w (runOnce lib cfg w poll) done rest ∧
      (0 < poll.available → ∀ update ∈ (done ++ rest).head?, succeeds lib poll.raises update = true → done ≠ []) := by
  have hoffset : (w.arrived.filter fun update => w.runner.lastUpdateId + 1 ≤ update.updateId) =
      w.arrived.filter fun update => w.runner.lastUpdateId < update.updateId := by
    apply List.filter_congr
    intro update _
    exact decide_eq_decide.mpr Int.add_one_le_iff
  obtain ⟨size, hsize, hpositive⟩ : ∃ size, getUpdates cfg w.arrived (w.runner.lastUpdateId + 1) poll.available =
      (w.arrived.filter fun update => w.runner.lastUpdateId < update.updateId).take size ∧ (0 < poll.available → 0 < size) := by
    refine ⟨min poll.available (max 1 (min 100 cfg.limit)).toNat, ?_, fun havailable => ?_⟩
    · rw [getUpdates, hoffset]
    · omega
  have hbatch : ((w.arrived.filter fun update => w.runner.lastUpdateId < update.updateId).take size).Pairwise
      fun a b => a.updateId < b.updateId := (hsorted.filter _).sublist (List.take_sublist _ _)
  have hpending : ∀ update ∈ w.arrived.filter fun update => w.runner.lastUpdateId < update.updateId,
      w.runner.lastUpdateId < update.updateId := by
    intro update hmem
    exact of_decide_eq_true (List.mem_filter.mp hmem).2
  have habove := fun update hmem => hpending update ((List.take_sublist size _).subset hmem)
  have hwhole := List.take_append_drop size (w.arrived.filter fun update => w.runner.lastUpdateId < update.updateId)
  have hfront : 0 < poll.available →
      ((w.arrived.filter fun update => w.runner.lastUpdateId < update.updateId).take size).head? =
        (w.arrived.filter fun update => w.runner.lastUpdateId < update.updateId).head? := by
    intro havailable
    rw [List.head?_take, if_neg (hpositive havailable).ne']
  have hloop : pollLoop lib poll.raises _ ⟨w.runner.lastUpdateId, w.runner.recentIds, w.events⟩ = _ :=
    pollLoop_spec hbatch habove hrecent
  generalize (w.arrived.filter fun update => w.runner.lastUpdateId < update.updateId).take size = batch at *
  generalize hcommitted : ((batch.takeWhile (succeeds lib poll.raises)).getLast?.map (·.updateId)).getD w.runner.lastUpdateId =
    committed at hloop
  have hmono : w.runner.lastUpdateId ≤ committed := by
    rw [← hcommitted]
    cases hnewest : (batch.takeWhile (succeeds lib poll.raises)).getLast? with
    | none => exact Int.le_refl _
    | some newest =>
      have hmem : newest ∈ batch := (List.takeWhile_sublist _).subset (List.mem_of_getLast? hnewest)
      exact Int.le_of_lt (habove newest hmem)
  have hrun : (runOnce lib cfg w poll).runner.lastUpdateId = committed ∧
      (runOnce lib cfg w poll).runner.recentIds = (batch.takeWhile (succeeds lib poll.raises)).foldl
        (fun items update => addRecentId items update.updateId) w.runner.recentIds ∧
      (runOnce lib cfg w poll).events = w.events ++
        (batch.takeWhile (succeeds lib poll.raises)).map (fun update => Event.processed update.updateId) ++
          ((batch.dropWhile (succeeds lib poll.raises)).head?.map fun update =>
            processUpdate lib poll.raises update.updateId update.toDict).toList ∧
      (runOnce lib cfg w poll).arrived = w.arrived ∧ (runOnce lib cfg w poll).runner.initialized = true ∧
      ∀ x ∈ (runOnce lib cfg w poll).stored, x ∈ w.stored ∨ x = committed := by
    rw [runOnce, initializeRunner, if_pos hinit]
    dsimp only
    rw [hsize, hloop]
    dsimp only
    split
    · refine ⟨rfl, rfl, rfl, rfl, hinit, fun x hx => ?_⟩
      rw [commitOffset] at hx
      dsimp only at hx
      split at hx
      · obtain ⟨-, -, rfl⟩ := Option.map_eq_some_iff.mp hx
        exact .inr rfl
      · exact .inl hx
    · next hnot =>
      exact ⟨Int.le_antisymm hmono (Int.not_lt.mp hnot), rfl, rfl, rfl, hinit, fun x hx => .inl hx⟩
  obtain ⟨hlast, hrecents, hevents, harrived, hinitialized, hstored⟩ := hrun
  refine ⟨batch.takeWhile (succeeds lib poll.raises),
    batch.dropWhile (succeeds lib poll.raises) ++ (w.arrived.filter fun update => w.runner.lastUpdateId < update.updateId).drop size,
    ⟨?_, ?_, hlast.trans hcommitted.symm, ⟨_, hevents, ?_⟩, ?_, harrived, hinitialized, ?_⟩, ?_⟩
  · rw [← List.append_assoc, List.takeWhile_append_dropWhile]
    exact hwhole.symm
  · exact fun update hmem => List.mem_takeWhile_imp hmem
  · intro event hevent
    rw [Option.mem_toList, Option.map_eq_some_iff] at hevent
    obtain ⟨update, hhead, rfl⟩ := hevent
    have hstops : succeeds lib poll.raises update = false := by
      have hnot := List.head?_dropWhile_not (succeeds lib poll.raises) batch
      rw [hhead] at hnot
      simpa using hnot
    exact ⟨update, List.mem_append_left _ (List.mem_of_mem_head? hhead), processUpdate_of_not_succeeds hstops⟩
  · intro x hx
    rw [hrecents] at hx
    exact mem_addRecentIds hx
  · intro x hx
    rw [hlast]
    exact hstored x hx
  · intro havailable update hhead hsucceeds hnil
    rw [← List.append_assoc, List.takeWhile_append_dropWhile, hwhole, ← hfront havailable] at hhead
    obtain ⟨tail, rfl⟩ := List.head?_eq_some_iff.mp hhead
    rw [List.takeWhile_cons_of_pos hsucceeds] at hnil
    cases hnil

def Event.success : Event → Option ℤ
  | .processed updateId => some updateId
  | _ => none

/-- The processing of the update raised, and it has not been processed since. -/
def Unresolved (events : List Event) (updateId : ℤ) : Prop :=
  ∃ earlier later, events = earlier ++ Event.failed updateId :: later ∧ .processed updateId ∉ later

structure Sound (cfg : PollingConfig) (w : World) : Prop where
  sorted : w.arrived.Pairwise fun a b => a.updateId < b.updateId
  idle : w.runner.initialized = false → w.events = [] ∧ w.runner.recentIds = []
  recent : ∀ x ∈ w.runner.recentIds, x ≤ w.runner.lastUpdateId
  processed : ∀ updateId, .processed updateId ∈ w.events → updateId ≤ w.runner.lastUpdateId
  once : (w.events.filterMap Event.success).Nodup
  offered : ∀ updateId, .failed updateId ∈ w.events → ∃ update ∈ w.arrived, update.updateId = updateId
  /-- An update that failed is passed by the offset only after it was processed. -/
  passed : ∀ earlier updateId later, w.events = earlier ++ Event.failed updateId :: later → updateId ≤ w.runner.lastUpdateId →
    .processed updateId ∈ later
  stored : w.runner.initialized = true → cfg.persistOffset = true → ∀ x ∈ w.stored, x ≤ w.runner.lastUpdateId

namespace Sound

variable {w w' : World} {done rest : List Update}

theorem start (cfg : PollingConfig) (stored : Option ℤ) : Sound cfg (start stored) where
  sorted := .nil
  idle _ := ⟨rfl, rfl⟩
  recent _ h := absurd h List.not_mem_nil
  processed _ h := absurd h List.not_mem_nil
  once := List.nodup_nil
  offered _ h := absurd h List.not_mem_nil
  passed earlier _ later h _ := by simp [TelegramPolling.start] at h
  stored h := nomatch h

theorem of_idle (hsorted : w.arrived.Pairwise fun a b => a.updateId < b.updateId) (hevents : w.events = [])
    (hrecent : w.runner.recentIds = [])
    (hstored : w.runner.initialized = true → cfg.persistOffset = true → ∀ x ∈ w.stored, x ≤ w.runner.lastUpdateId) : Sound cfg w where
  sorted := hsorted
  idle _ := ⟨hevents, hrecent⟩
  recent := by simp [hrecent]
  processed := by simp [hevents]
  once := by simp [hevents]
  offered := by simp [hevents]
  passed := by simp [hevents]
  stored := hstored

theorem initialized (h : Sound cfg w) : Sound cfg (initializeRunner cfg w) ∧ (initializeRunner cfg w).runner.initialized = true := by
  rw [initializeRunner]
  cases hinit : w.runner.initialized with
  | true =>
    rw [if_pos rfl]
    exact ⟨h, hinit⟩
  | false =>
    obtain ⟨hevents, hrecent⟩ := h.idle hinit
    rw [if_neg Bool.false_ne_true]
    dsimp only
    have hloaded : ∀ x ∈ w.stored, cfg.persistOffset = true → x ≤ if cfg.persistOffset then w.stored.getD 0 else 0 := by
      intro x hx hpersist
      rw [if_pos hpersist, Option.mem_def.mp hx]
      exact Int.le_refl x
    split
    · split
      · refine ⟨of_idle h.sorted hevents hrecent fun _ hpersist x hx => ?_, rfl⟩
        rw [commitOffset] at hx ⊢
        dsimp only at hx ⊢
        rw [hpersist, Bool.not_false, Bool.and_true, if_pos rfl] at hx
        obtain ⟨-, -, rfl⟩ := Option.map_eq_some_iff.mp hx
        exact Int.le_refl _
      · exact ⟨of_idle h.sorted hevents hrecent fun _ hpersist x hx => hloaded x hx hpersist, rfl⟩
    · exact ⟨of_idle h.sorted hevents hrecent fun _ hpersist x hx => hloaded x hx hpersist, rfl⟩

theorem polled (h : Sound cfg w) (hinit : w.runner.initialized = true) (hp : Polled lib cfg raises w w' done rest) : Sound cfg w' := by
  obtain ⟨hmono, hdone, hrest⟩ := hp.parts h.sorted
  obtain ⟨failure, hevents, hfailure⟩ := hp.events
  refine ⟨by rw [hp.arrived]; exact h.sorted, ?_, ?_, ?_, ?_, ?_, ?_, ?_⟩
  · exact fun hnot => absurd (hp.initialized.symm.trans hnot) (by decide)
  · intro x hx
    rcases hp.recent x hx with hold | ⟨update, hmem, rfl⟩
    · exact Int.le_trans (h.recent x hold) hmono
    · exact hdone update hmem
  · intro updateId hmem
    rcases hp.processed.mp hmem with hold | ⟨update, hupdate, rfl⟩
    · exact Int.le_trans (h.processed updateId hold) hmono
    · exact hdone update hupdate
  · have hsuccesses : w'.events.filterMap Event.success = w.events.filterMap Event.success ++ done.map (·.updateId) := by
      have hnone : failure.filterMap Event.success = [] := by
        rw [List.filterMap_eq_nil_iff]
        intro event hevent
        obtain ⟨update, -, rfl | rfl⟩ := hfailure event hevent
        · rfl
        · rfl
      rw [hevents, List.filterMap_append, List.filterMap_append, hnone, List.append_nil, List.filterMap_map]
      simp [Function.comp_def, Event.success]
    rw [hsuccesses, List.nodup_append]
    refine ⟨h.once, ?_, ?_⟩
    · rw [List.nodup_iff_pairwise_ne, List.pairwise_map]
      exact (List.pairwise_append.mp (hp.sorted h.sorted)).1.imp fun hlt => Int.ne_of_lt hlt
    · intro x hx y hy
      obtain ⟨event, hevent, hsuccess⟩ := List.mem_filterMap.mp hx
      obtain ⟨update, hupdate, rfl⟩ := List.mem_map.mp hy
      have hpending := (hp.mem_pending.mp (.inl hupdate)).2
      cases event with
      | processed updateId =>
        have hle := h.processed updateId hevent
        cases hsuccess
        omega
      | failed | rejected => cases hsuccess
  · intro updateId hmem
    rw [hp.arrived]
    rw [hevents, List.mem_append, List.mem_append] at hmem
    rcases hmem with (hold | hnew) | hfail
    · exact h.offered updateId hold
    · simp at hnew
    · obtain ⟨update, hupdate, heq | heq⟩ := hfailure _ hfail
      · cases heq
        exact ⟨update, (hp.mem_pending.mp (.inr hupdate)).1, rfl⟩
      · cases heq
  · intro earlier updateId later hsplit hle
    have hnew : Event.failed updateId ∈ done.map (fun update => Event.processed update.updateId) ++ failure → False := by
      intro hmem
      rcases List.mem_append.mp hmem with hprocessed | hfail
      · simp at hprocessed
      · obtain ⟨update, hupdate, heq | heq⟩ := hfailure _ hfail
        · cases heq
          have hlt := hrest update hupdate
          omega
        · cases heq
    rw [hevents, List.append_assoc] at hsplit
    rcases List.append_eq_append_iff.mp hsplit with ⟨front, -, hback⟩ | ⟨front, hfront, hback⟩
    · exact absurd (by rw [hback]; simp) hnew
    · cases front with
      | nil =>
        rw [List.nil_append] at hback
        exact absurd (by rw [← hback]; simp) hnew
      | cons event front =>
        obtain ⟨rfl, rfl⟩ := List.cons.inj hback
        rcases Int.lt_or_le w.runner.lastUpdateId updateId with hpending | hpassed
        · -- The update was pending, and the offset has passed it in this call.
          obtain ⟨update, harrived, rfl⟩ := h.offered updateId (by rw [hfront]; simp)
          have hmem := hp.mem_done h.sorted ⟨harrived, hpending⟩ hle
          exact List.mem_append_right _ (List.mem_append_left _ (List.mem_map.mpr ⟨update, hmem, rfl⟩))
        · exact List.mem_append_left _ (h.passed earlier updateId front hfront hpassed)
  · intro _ hpersist x hx
    rcases hp.stored x hx with hold | rfl
    · exact Int.le_trans (h.stored hinit hpersist x hold) hmono
    · exact Int.le_refl _

theorem step (h : Sound cfg w) (action : Action) : Sound cfg (step lib cfg w action) := by
  cases action with
  | arrive update =>
    rw [TelegramPolling.step]
    split
    · next hlater =>
      refine ⟨?_, h.idle, h.recent, h.processed, h.once, ?_, h.passed, h.stored⟩
      · rw [List.pairwise_append]
        refine ⟨h.sorted, List.pairwise_singleton _ _, fun earlier hearlier other hother => ?_⟩
        rw [List.mem_singleton.mp hother]
        exact hlater earlier hearlier
      · intro updateId hmem
        obtain ⟨other, hother, hid⟩ := h.offered updateId hmem
        exact ⟨other, List.mem_append_left _ hother, hid⟩
    · exact h
  | runOnce poll =>
    obtain ⟨hsound, hinit⟩ := h.initialized
    obtain ⟨done, rest, hp, -⟩ := @polled_runOnce lib cfg _ hinit hsound.sorted hsound.recent poll
    have htwice : initializeRunner cfg (initializeRunner cfg w) = initializeRunner cfg w := by
      rw [initializeRunner, if_pos hinit]
    have hsame : runOnce lib cfg (initializeRunner cfg w) poll = runOnce lib cfg w poll := by
      rw [runOnce, runOnce, htwice]
    rw [hsame] at hp
    exact hsound.polled hinit hp
  | unreachable => exact h.initialized.1

theorem run (h : Sound cfg w) (actions : List Action) : Sound cfg (run (TelegramPolling.step lib cfg) w actions) :=
  run_invariant (fun _ action h => h.step action) h actions

theorem of_unresolved (h : Sound cfg w) {updateId : ℤ} (hfailed : Unresolved w.events updateId) :
    w.runner.lastUpdateId < updateId := by
  obtain ⟨earlier, later, hevents, hnot⟩ := hfailed
  by_contra hle
  exact hnot (h.passed earlier updateId later hevents (Int.not_lt.mp hle))

end Sound

/-- An update without an envelope that waits stays where it is. -/
structure Stuck (w : World) (update : Update) : Prop where
  initialized : w.runner.initialized = true
  pending : Pending w update

section Progress

variable {w : World} {update : Update}

theorem Stuck.step (h : Stuck w update) (hs : Sound cfg w) (hnot : update.acceptable lib = false) (action : Action) :
    Stuck (step lib cfg w action) update := by
  have hsame : initializeRunner cfg w = w := by rw [initializeRunner, if_pos h.initialized]
  cases action with
  | arrive other =>
    rw [TelegramPolling.step]
    split
    · exact ⟨h.initialized, List.mem_append_left _ h.pending.1, h.pending.2⟩
    · exact h
  | runOnce poll =>
    obtain ⟨done, rest, hp, -⟩ := @polled_runOnce lib cfg _ h.initialized hs.sorted hs.recent poll
    refine ⟨hp.initialized, ?_, ?_⟩
    · rw [TelegramPolling.step, hp.arrived]
      exact h.pending.1
    · rcases hp.mem_pending.mpr h.pending with hdone | hrest
      · have hsucceeds := hp.succeed update hdone
        rw [succeeds, hnot] at hsucceeds
        cases hsucceeds
      · exact (hp.parts hs.sorted).2.2 update hrest
  | unreachable =>
    rw [TelegramPolling.step, hsame]
    exact h

theorem Stuck.never_processed (h : Stuck w update) (hs : Sound cfg w) (hnot : update.acceptable lib = false) (later : List Action)
    {updateId : ℤ} (hlt : update.updateId < updateId) :
    Event.processed updateId ∉ (run (TelegramPolling.step lib cfg) w later).events := by
  have hrun : Sound cfg (run (TelegramPolling.step lib cfg) w later) ∧ Stuck (run (TelegramPolling.step lib cfg) w later) update :=
    run_invariant (I := fun w => Sound cfg w ∧ Stuck w update)
      (fun _ action hboth => ⟨hboth.1.step action, hboth.2.step hboth.1 hnot action⟩) ⟨hs, h⟩ later
  intro hmem
  have hle := hrun.1.processed updateId hmem
  have habove := hrun.2.pending.2
  omega

theorem processed_or_pending (hinit : w.runner.initialized = true) (hs : Sound cfg w) (hpending : Pending w update)
    (hunblocked : Unblocked lib w update) (haccepts : update.acceptable lib = true) :
    .processed update.updateId ∈ (runOnce lib cfg w untroubled).events ∨
      Pending (runOnce lib cfg w untroubled) update ∧ Unblocked lib (runOnce lib cfg w untroubled) update ∧
        ((runOnce lib cfg w untroubled).arrived.filter fun other =>
          (runOnce lib cfg w untroubled).runner.lastUpdateId < other.updateId).length <
          (w.arrived.filter fun other => w.runner.lastUpdateId < other.updateId).length := by
  obtain ⟨done, rest, hp, hprogress⟩ := @polled_runOnce lib cfg _ hinit hs.sorted hs.recent untroubled
  obtain ⟨hmono, hdone, hrest⟩ := hp.parts hs.sorted
  rcases hp.mem_pending.mpr hpending with hmem | hmem
  · exact .inl (hp.processed.mpr (.inr ⟨update, hmem, rfl⟩))
  · right
    have hpending' : ∀ other, Pending (runOnce lib cfg w untroubled) other → Pending w other := by
      rintro other ⟨harrived, hlast⟩
      rw [hp.arrived] at harrived
      exact ⟨harrived, Int.lt_of_le_of_lt hmono hlast⟩
    refine ⟨⟨by rw [hp.arrived]; exact hpending.1, hrest update hmem⟩, fun other hother => hunblocked other (hpending' other hother), ?_⟩
    -- The first pending update succeeds.
    have hnonempty : done ≠ [] := by
      have hhead : ∀ first ∈ (done ++ rest).head?, first.acceptable lib = true := by
        intro first hfirst
        obtain ⟨tail, htail⟩ := List.head?_eq_some_iff.mp hfirst
        have hsorted := hp.sorted hs.sorted
        have hin : update ∈ first :: tail := htail ▸ List.mem_append_right done hmem
        rw [htail] at hsorted
        rcases List.mem_cons.mp hin with rfl | htl
        · exact haccepts
        · have hfirstPending : first ∈ done ++ rest := htail ▸ List.mem_cons_self
          exact hunblocked first (hp.mem_pending.mp (List.mem_append.mp hfirstPending)) ((List.pairwise_cons.mp hsorted).1 update htl)
      cases hcase : (done ++ rest).head? with
      | none =>
        rw [List.head?_eq_none_iff, List.append_eq_nil_iff] at hcase
        rw [hcase.2] at hmem
        cases hmem
      | some first =>
        have hsucceeds : succeeds lib untroubled.raises first = true := by
          rw [succeeds, hhead first hcase]
          rfl
        exact hprogress (by decide) first hcase hsucceeds
    have hleft : (runOnce lib cfg w untroubled).arrived.filter (fun other =>
        (runOnce lib cfg w untroubled).runner.lastUpdateId < other.updateId) = rest := by
      have htwice : (w.arrived.filter fun other => (runOnce lib cfg w untroubled).runner.lastUpdateId < other.updateId) =
          (w.arrived.filter fun other => w.runner.lastUpdateId < other.updateId).filter fun other =>
            (runOnce lib cfg w untroubled).runner.lastUpdateId < other.updateId := by
        rw [List.filter_filter]
        apply List.filter_congr
        intro other _
        rw [← Bool.decide_and, decide_eq_decide]
        omega
      have hnone : done.filter (fun other => (runOnce lib cfg w untroubled).runner.lastUpdateId < other.updateId) = [] := by
        rw [List.filter_eq_nil_iff]
        intro other hother
        have hle := hdone other hother
        rw [decide_eq_true_eq]
        omega
      have hall : rest.filter (fun other => (runOnce lib cfg w untroubled).runner.lastUpdateId < other.updateId) = rest := by
        rw [List.filter_eq_self]
        exact fun other hother => decide_eq_true (hrest other hother)
      rw [hp.arrived, htwice, hp.pending, List.filter_append, hnone, hall, List.nil_append]
    rw [hleft, hp.pending, List.length_append]
    have hlength := List.length_pos_of_ne_nil hnonempty
    omega

theorem processed_runOnce (hinit : w.runner.initialized = true) (hs : Sound cfg w) (poll : Poll) {updateId : ℤ}
    (h : .processed updateId ∈ w.events) : .processed updateId ∈ (runOnce lib cfg w poll).events := by
  obtain ⟨done, rest, hp, -⟩ := @polled_runOnce lib cfg _ hinit hs.sorted hs.recent poll
  exact hp.processed.mpr (.inl h)

theorem processed_of_unblocked (calls : ℕ) (hinit : w.runner.initialized = true) (hs : Sound cfg w)
    (h : .processed update.updateId ∈ w.events ∨ Pending w update ∧ Unblocked lib w update ∧
      (w.arrived.filter fun other => w.runner.lastUpdateId < other.updateId).length ≤ calls)
    (haccepts : update.acceptable lib = true) :
    .processed update.updateId ∈
      (run (TelegramPolling.step lib cfg) w (List.replicate calls (.runOnce untroubled))).events := by
  induction calls generalizing w with
  | zero =>
    rcases h with hdone | ⟨hpending, -, hlength⟩
    · exact hdone
    · have hmem : update ∈ w.arrived.filter fun other => w.runner.lastUpdateId < other.updateId :=
        List.mem_filter.mpr ⟨hpending.1, decide_eq_true hpending.2⟩
      have hpositive := List.length_pos_of_mem hmem
      omega
  | succ calls ih =>
    have hinit' : (runOnce lib cfg w untroubled).runner.initialized = true := by
      obtain ⟨done, rest, hp, -⟩ := @polled_runOnce lib cfg _ hinit hs.sorted hs.recent untroubled
      exact hp.initialized
    rw [List.replicate_succ, run_cons]
    refine ih hinit' (hs.step (.runOnce untroubled)) ?_
    rcases h with hdone | ⟨hpending, hunblocked, hlength⟩
    · exact .inl (processed_runOnce hinit hs untroubled hdone)
    · rcases processed_or_pending hinit hs hpending hunblocked haccepts with hdone | ⟨hstill, hfree, hless⟩
      · exact .inl hdone
      · exact .inr ⟨hstill, hfree, Nat.le_of_lt_succ (Nat.lt_of_lt_of_le hless hlength)⟩

end Progress

/-- **Failures are never passed, nothing is processed twice, and an update is processed exactly when none without an
envelope waits before it.** -/
theorem updates_delivered_iff (lib : ValueLibrary) (cfg : PollingConfig) (stored : Option ℤ) (actions : List Action) :
    let w := run (TelegramPolling.step lib cfg) (start stored) actions
    (∀ updateId, Unresolved w.events updateId → w.runner.lastUpdateId < updateId) ∧
    (w.runner.initialized = true → cfg.persistOffset = true → ∀ x ∈ w.stored, x ≤ w.runner.lastUpdateId) ∧
    (w.events.filterMap Event.success).Nodup ∧
    (w.runner.initialized = true → ∀ update, Pending w update → update.acceptable lib = true →
      ((∃ later, .processed update.updateId ∈ (run (TelegramPolling.step lib cfg) w later).events) ↔ Unblocked lib w update) ∧
      (Unblocked lib w update → .processed update.updateId ∈
        (run (TelegramPolling.step lib cfg) w (List.replicate w.arrived.length (.runOnce untroubled))).events)) := by
  intro w
  have hs : Sound cfg w := (Sound.start cfg stored).run actions
  refine ⟨fun updateId => hs.of_unresolved, hs.stored, hs.once, ?_⟩
  intro hinit update hpending haccepts
  have hprocessed : Unblocked lib w update → .processed update.updateId ∈
      (run (TelegramPolling.step lib cfg) w (List.replicate w.arrived.length (.runOnce untroubled))).events := fun hunblocked =>
    processed_of_unblocked _ hinit hs (.inr ⟨hpending, hunblocked, List.length_filter_le _ _⟩) haccepts
  refine ⟨⟨?_, fun hunblocked => ⟨_, hprocessed hunblocked⟩⟩, hprocessed⟩
  rintro ⟨later, hmem⟩ earlier hearlier hlt
  by_contra hnot
  exact (Stuck.mk hinit hearlier).never_processed hs (Bool.eq_false_iff.mpr hnot) later hlt hmem

def plainLibrary : ValueLibrary := ⟨fun _ => "", fun _ => none⟩

def oldCallback : Update := ⟨1, [("callback_query", .dict [("id", .str "query"), ("data", .str "yes")])]⟩

def greeting : Update :=
  ⟨2, [("message", .dict [("message_id", .int 7), ("chat", .dict [("id", .int 5)]), ("from", .dict [("id", .int 5)])])]⟩

/-- The message behind it is never processed. -/
theorem callback_stalls_polling :
    ¬ ∀ (actions : List Action) (update : Update),
      let w := run (TelegramPolling.step plainLibrary ⟨100, false, false⟩) (start none) actions
      w.runner.initialized = true → Pending w update → update.acceptable plainLibrary = true →
        ∃ later, .processed update.updateId ∈ (run (TelegramPolling.step plainLibrary ⟨100, false, false⟩) w later).events := by
  intro h
  have hs : Sound ⟨100, false, false⟩ (run (TelegramPolling.step plainLibrary ⟨100, false, false⟩) (start none)
      [.arrive oldCallback, .arrive greeting, .runOnce untroubled]) := (Sound.start _ none).run _
  have harrived : (run (TelegramPolling.step plainLibrary ⟨100, false, false⟩) (start none)
      [.arrive oldCallback, .arrive greeting, .runOnce untroubled]).arrived = [oldCallback, greeting] := by decide +kernel
  have hrunner : (run (TelegramPolling.step plainLibrary ⟨100, false, false⟩) (start none)
      [.arrive oldCallback, .arrive greeting, .runOnce untroubled]).runner = ⟨0, true, []⟩ := by decide +kernel
  have hpending : ∀ update ∈ [oldCallback, greeting], 0 < update.updateId → Pending (run (TelegramPolling.step plainLibrary
      ⟨100, false, false⟩) (start none) [.arrive oldCallback, .arrive greeting, .runOnce untroubled]) update := by
    intro update hmem hpositive
    rw [Pending, harrived, hrunner]
    exact ⟨hmem, hpositive⟩
  obtain ⟨later, hmem⟩ := h [.arrive oldCallback, .arrive greeting, .runOnce untroubled] greeting (by rw [hrunner])
    (hpending greeting (by simp) (by decide)) (by decide +kernel)
  have hnot : oldCallback.acceptable plainLibrary = false := by
    rw [Update.acceptable, oldCallback, extractEnvelope_inaccessible_callback plainLibrary 1 _ rfl]
    rfl
  exact (Stuck.mk (by rw [hrunner]) (hpending oldCallback (by simp) (by decide))).never_processed hs hnot later (by decide) hmem

end Runs

end OpenMinion.TelegramPolling
