import Mathlib.Algebra.Order.Field.Rat
import Mathlib.Tactic.Linarith
import Mathlib.Tactic.Ring
import OpenMinion.IsoReading
import OpenMinion.MemoryEffects

/-!
# Confidence decay

A run of `apply_confidence_decay` lowers a confidence by the time since the last decay and moves `updated_at`. However
the runs are spaced, the confidence is the one that a single run at the time of the last would leave.
-/
namespace OpenMinion.ConfidenceDecay
open IsoTimestamps IsoReading KeyedTables MemoryStore MemoryDatabase TransitionRuns

theorem clamp_decay {c rate x y : ℚ} (hc : 0 ≤ c) (hx : 0 ≤ x) (hy : 0 ≤ y) :
    max 0 (max 0 (c - rate * x) - rate * y) = max 0 (c - rate * (x + y)) := by
  rcases le_or_gt (rate * x) c with hle | hgt
  · rw [max_eq_right (sub_nonneg.mpr hle), sub_sub, ← mul_add]
  · have hrate : 0 ≤ rate := by
      by_contra hneg
      have hdown : rate * x ≤ 0 := mul_nonpos_of_nonpos_of_nonneg (not_le.mp hneg).le hx
      exact absurd (hdown.trans hc) (not_le.mpr hgt)
    have hrest : 0 ≤ rate * y := mul_nonneg hrate hy
    rw [max_eq_left (sub_nonpos.mpr hgt.le), zero_sub, max_eq_left (neg_nonpos.mpr hrest), mul_add, max_eq_left]
    linarith

/-- What `datetime.fromisoformat` reads: an instant, or a time without an offset. -/
inductive When where
  | aware (t : DateTime)
  | naive
  deriving DecidableEq

structure Platform where
  /-- `datetime.fromisoformat`, or nothing for a text that it refuses. -/
  fromIsoformat : String → Option When
  /-- The scope is read, and is that of a session. -/
  isSession : String → Bool

structure DecaySettings where
  intervalDays : ℤ
  decayRate : ℚ
  minConfidence : ℚ := 0
  disuseThresholdDays : Option ℤ := none
  disuseDecayMultiplier : ℚ := 1
  exemptTypes : List String := ["pin"]

/-- `timedelta(days=max(1, int(days)))`, in microseconds. -/
def wholeDays (days : ℤ) : ℤ := max 1 days * microsPerDay

def DecaySettings.interval (cfg : DecaySettings) : ℤ := wholeDays cfg.intervalDays

/-- `(now - before).total_seconds()`. -/
def totalSeconds (now before : DateTime) : ℚ := ((now.micros - before.micros : ℤ) : ℚ) / 1000000

section Runs
variable (platform : Platform) (cfg : DecaySettings)

def parseWhen (value : String) : Option When := if value = "" then none else platform.fromIsoformat value

def scopeIsExempt (scope recordType : String) : Bool := platform.isSession scope || cfg.exemptTypes.contains recordType

/-- `_effective_decay`; the cutoff of disuse may be out of range, and a time without an offset does
not compare with it. -/
def effectiveDecay (now updatedAt : DateTime) (lastHitAt : Option When) : Option ℚ :=
  let elapsedSeconds := totalSeconds now updatedAt
  let intervalSeconds : ℚ := (max 1 cfg.intervalDays : ℤ) * 86400
  let decay := cfg.decayRate * max 1 (elapsedSeconds / max 1 intervalSeconds)
  match cfg.disuseThresholdDays with
  | none => some decay
  | some days =>
    if cfg.disuseDecayMultiplier ≤ 1 then some decay
    else
      match now.addMicros (-wholeDays days), lastHitAt with
      | none, _ => none
      | some _, none => some decay
      | some _, some .naive => none
      | some disuseCutoff, some (.aware hit) => some (if hit < disuseCutoff then decay * cfg.disuseDecayMultiplier else decay)

def newConfidence (now cutoff : DateTime) (r : MemoryRecord) : Option (Option ℚ) :=
  if scopeIsExempt platform cfg r.scope r.recordType then some none
  else
    match parseWhen platform r.updatedAt with
    | none => some none
    | some .naive => none
    | some (.aware updatedAt) =>
      if cutoff ≤ updatedAt then some none
      else
        (effectiveDecay cfg now updatedAt (parseWhen platform (r.lastHitAt.getD ""))).map fun decay =>
          some (max 0 (r.confidence - decay))

/-- `apply_confidence_decay` at a time; nothing when it raises. -/
def applyDecay (db : Database) (now : DateTime) : Option Database :=
  match now.addMicros (-cfg.interval) with
  | none => none
  | some cutoff =>
    if (db.records.filter fun r => !r.isDeleted).any fun r => (newConfidence platform cfg now cutoff r).isNone then none
    else some (db.applyConfidenceDecay (fun r => (newConfidence platform cfg now cutoff r).join) cfg.minConfidence (toIsoUtc now)).2

def collect (db : Database) (now : DateTime) : Database := (applyDecay platform cfg db now).getD db

def rowOf (db : Database) (id : String) : Option MemoryRecord := lookup (·.id) id db.records

def Decays (db : Database) (id : String) (now : DateTime) : Prop :=
  rowOf (collect platform cfg db now) id ≠ rowOf db id

instance (db : Database) (id : String) (now : DateTime) : Decidable (Decays platform cfg db id now) := by
  unfold Decays
  infer_instance

def lastDecay (id : String) : DateTime → Database → List DateTime → DateTime
  | last, _, [] => last
  | last, db, now :: times =>
    lastDecay id (if Decays platform cfg db id now then now else last) (collect platform cfg db now) times

def decayedConfidence (confidence : ℚ) (updatedAt t : DateTime) : ℚ :=
  max 0 (confidence - cfg.decayRate * (((t.micros : ℚ) - updatedAt.micros) / cfg.interval))

end Runs

section Amount
variable {platform : Platform} {cfg : DecaySettings}

theorem interval_eq (cfg : DecaySettings) : (cfg.interval : ℚ) = (max 1 cfg.intervalDays : ℤ) * 86400 * 1000000 := by
  rw [DecaySettings.interval, wholeDays, Int.cast_mul, mul_assoc]
  norm_num [microsPerDay]

theorem interval_pos (cfg : DecaySettings) : 0 < cfg.interval := by
  rw [DecaySettings.interval, wholeDays]
  have hdays : 0 < max 1 cfg.intervalDays := lt_max_of_lt_left Int.one_pos
  exact Int.mul_pos hdays (by decide)

theorem seconds_ge_one (cfg : DecaySettings) : (1 : ℚ) ≤ (max 1 cfg.intervalDays : ℤ) * 86400 := by
  have hdays : (1 : ℤ) ≤ max 1 cfg.intervalDays := le_max_left _ _
  have hcast : (1 : ℚ) ≤ (max 1 cfg.intervalDays : ℤ) := by exact_mod_cast hdays
  linarith

/-- The settings have no multiplier for a record that is not used. -/
def NoDisuse (cfg : DecaySettings) : Prop := cfg.disuseThresholdDays = none ∨ cfg.disuseDecayMultiplier ≤ 1

theorem effectiveDecay_eq (hdisuse : NoDisuse cfg) {now updatedAt : DateTime} (hpast : cfg.interval < now.micros - updatedAt.micros)
    (lastHitAt : Option When) :
    effectiveDecay cfg now updatedAt lastHitAt = some (cfg.decayRate * (((now.micros : ℚ) - updatedAt.micros) / cfg.interval)) := by
  have hseconds := seconds_ge_one cfg
  have hinterval : (0 : ℚ) < cfg.interval := by exact_mod_cast interval_pos cfg
  have hratio : totalSeconds now updatedAt / max 1 ((max 1 cfg.intervalDays : ℤ) * 86400 : ℚ) =
      ((now.micros : ℚ) - updatedAt.micros) / cfg.interval := by
    rw [max_eq_right hseconds, totalSeconds, interval_eq, div_div]
    push_cast
    rw [mul_comm (1000000 : ℚ)]
  have hone : 1 ≤ ((now.micros : ℚ) - updatedAt.micros) / cfg.interval := by
    rw [le_div_iff₀ hinterval, one_mul]
    have hlt : (cfg.interval : ℚ) < ((now.micros - updatedAt.micros : ℤ) : ℚ) := by exact_mod_cast hpast
    push_cast at hlt
    exact hlt.le
  rw [effectiveDecay, hratio, max_eq_right hone]
  cases hthreshold : cfg.disuseThresholdDays with
  | none => rfl
  | some days =>
    have hmultiplier : cfg.disuseDecayMultiplier ≤ 1 := by
      rcases hdisuse with hnone | hle
      · rw [hthreshold] at hnone
        cases hnone
      · exact hle
    exact if_pos hmultiplier

/-- A record of the collector: live, not exempt, with the time of its last decay and the confidence
that the time asks for. -/
structure Tracks (platform : Platform) (cfg : DecaySettings) (confidence : ℚ) (start last : DateTime) (r : MemoryRecord) : Prop where
  live : r.isDeleted = false
  subject : scopeIsExempt platform cfg r.scope r.recordType = false
  updated : parseWhen platform r.updatedAt = some (.aware last)
  after : start ≤ last
  clamped : r.confidence = decayedConfidence cfg confidence start last

variable {confidence : ℚ} {start last now cutoff : DateTime} {r : MemoryRecord}

theorem newConfidence_recent (h : Tracks platform cfg confidence start last r) (hrecent : cutoff ≤ last) :
    newConfidence platform cfg now cutoff r = some none := by
  rw [newConfidence, h.subject, h.updated]
  exact if_pos hrecent

theorem newConfidence_past (hdisuse : NoDisuse cfg) (hconfidence : 0 ≤ confidence) (h : Tracks platform cfg confidence start last r)
    (hcutoff : now.addMicros (-cfg.interval) = some cutoff) (hpast : last < cutoff) :
    newConfidence platform cfg now cutoff r = some (some (decayedConfidence cfg confidence start now)) := by
  have hmicros := addMicros_eq_some_iff.mp hcutoff
  have hlt : last.micros < cutoff.micros := hpast
  have hlate : cfg.interval < now.micros - last.micros := by omega
  have hinterval : (0 : ℚ) < cfg.interval := by exact_mod_cast interval_pos cfg
  have hfirst : (0 : ℚ) ≤ ((last.micros : ℚ) - start.micros) / cfg.interval := by
    have hle : (start.micros : ℚ) ≤ last.micros := by exact_mod_cast h.after
    exact div_nonneg (sub_nonneg.mpr hle) hinterval.le
  have hsecond : (0 : ℚ) ≤ ((now.micros : ℚ) - last.micros) / cfg.interval := by
    have hle : last.micros ≤ now.micros := by
      have hpos := interval_pos cfg
      omega
    have hcast : (last.micros : ℚ) ≤ now.micros := by exact_mod_cast hle
    exact div_nonneg (sub_nonneg.mpr hcast) hinterval.le
  have hsum : ((last.micros : ℚ) - start.micros) / cfg.interval + ((now.micros : ℚ) - last.micros) / cfg.interval =
      ((now.micros : ℚ) - start.micros) / cfg.interval := by
    rw [← add_div]
    ring
  rw [newConfidence, h.subject, h.updated]
  dsimp only
  rw [if_neg (not_le.mpr hpast), effectiveDecay_eq hdisuse hlate, h.clamped, decayedConfidence, decayedConfidence]
  simp only [Bool.false_eq_true, if_false, Option.map_some, clamp_decay hconfidence hfirst hsecond, hsum]

end Amount

section Rows
variable {decayed : MemoryRecord → Option ℚ} {minConfidence : ℚ} {nowText : String}

def written (confidence : ℚ) (nowText : String) (r : MemoryRecord) : MemoryRecord := { r with confidence, updatedAt := nowText }

def evicted (nowText : String) (r : MemoryRecord) : MemoryRecord :=
  { r with
    isDeleted := true
    updatedAt := nowText
    deletedAt := some nowText
    deletedReason := some "confidence_below_threshold" }

theorem records_decayRow_none {r : MemoryRecord} (h : decayed r = none) (db : Database) :
    (decayRow decayed minConfidence nowText db r).records = db.records := by
  rw [decayRow, h]

theorem records_decayRow_some {r : MemoryRecord} {confidence : ℚ} (h : decayed r = some confidence) (db : Database) :
    (decayRow decayed minConfidence nowText db r).records =
      if confidence < minConfidence then
        updateWhere (fun row => row.id = r.id) (evicted nowText) (updateWhere (fun row => row.id = r.id) (written confidence nowText) db.records)
      else updateWhere (fun row => row.id = r.id) (written confidence nowText) db.records := by
  rw [decayRow, h]
  dsimp only
  split <;> rfl

theorem lookup_update_of_ne {id other : String} (hne : other ≠ id) {f : MemoryRecord → MemoryRecord} (hf : ∀ r, (f r).id = r.id)
    (rows : List MemoryRecord) :
    lookup (·.id) id (updateWhere (fun r => r.id = other) f rows) = lookup (·.id) id rows := by
  rw [lookup_updateWhere (fun r _ => hf r)]
  cases hrow : lookup (·.id) id rows with
  | none => rfl
  | some r =>
    have hid : r.id = id := (lookup_some hrow).2
    have hother : decide (r.id = other) = false := decide_eq_false fun heq => hne (heq.symm.trans hid)
    rw [Option.map_some, hother]
    rfl

theorem rowOf_decayRow_of_ne {r : MemoryRecord} {id : String} (hne : r.id ≠ id) (db : Database) :
    rowOf (decayRow decayed minConfidence nowText db r) id = rowOf db id := by
  rw [rowOf, rowOf]
  cases hdecayed : decayed r with
  | none => rw [records_decayRow_none hdecayed]
  | some confidence =>
    have hwritten := lookup_update_of_ne (f := written confidence nowText) hne (fun _ => rfl) db.records
    rw [records_decayRow_some hdecayed]
    split
    · exact (lookup_update_of_ne (f := evicted nowText) hne (fun _ => rfl) _).trans hwritten
    · exact hwritten

theorem rowOf_decayRow_self {r row : MemoryRecord} {confidence : ℚ} {db : Database} (hrow : rowOf db r.id = some row)
    (hdecayed : decayed r = some confidence) (hkeep : minConfidence ≤ confidence) :
    rowOf (decayRow decayed minConfidence nowText db r) r.id = some (written confidence nowText row) := by
  have hid : row.id = r.id := (lookup_some hrow).2
  rw [rowOf, records_decayRow_some hdecayed, if_neg (not_lt.mpr hkeep), lookup_updateWhere (f := written confidence nowText) fun _ _ => rfl]
  rw [rowOf] at hrow
  rw [hrow, Option.map_some, hid, decide_eq_true rfl]
  rfl

theorem rowOf_foldl_eq {rows : List MemoryRecord} {id : String} (hnone : ∀ r ∈ rows, r.id = id → decayed r = none) (db : Database) :
    rowOf (rows.foldl (decayRow decayed minConfidence nowText) db) id = rowOf db id := by
  induction rows generalizing db with
  | nil => rfl
  | cons r rows ih =>
    rw [List.foldl_cons, ih fun s hs => hnone s (List.mem_cons_of_mem r hs)]
    by_cases hid : r.id = id
    · rw [rowOf, records_decayRow_none (hnone r List.mem_cons_self hid), rowOf]
    · exact rowOf_decayRow_of_ne hid db

theorem rowOf_foldl_decayed {rows : List MemoryRecord} (hids : UniqueKey (·.id) rows) {r : MemoryRecord} (hr : r ∈ rows)
    {confidence : ℚ} (hdecayed : decayed r = some confidence) (hkeep : minConfidence ≤ confidence) {db : Database}
    (hrow : rowOf db r.id = some r) :
    rowOf (rows.foldl (decayRow decayed minConfidence nowText) db) r.id = some (written confidence nowText r) := by
  obtain ⟨before, after, rfl⟩ := List.append_of_mem hr
  have hapart : (before.map (·.id) ++ r.id :: after.map (·.id)).Nodup := by
    simpa [UniqueKey] using hids
  have hbefore : ∀ s ∈ before, s.id = r.id → decayed s = none := by
    intro s hs heq
    have hdisjoint := (List.nodup_append.mp hapart).2.2 s.id (List.mem_map_of_mem hs) r.id List.mem_cons_self
    exact absurd heq hdisjoint
  have hafter : ∀ s ∈ after, s.id = r.id → decayed s = none := by
    intro s hs heq
    have hout := (List.nodup_cons.mp (List.nodup_append.mp hapart).2.1).1
    exact absurd (heq ▸ List.mem_map_of_mem hs) hout
  rw [List.foldl_append, List.foldl_cons, rowOf_foldl_eq hafter]
  refine rowOf_decayRow_self ?_ hdecayed hkeep
  rw [rowOf_foldl_eq hbefore, hrow]

theorem ids_decayRow (r : MemoryRecord) (db : Database) :
    (decayRow decayed minConfidence nowText db r).records.map (·.id) = db.records.map (·.id) := by
  cases hdecayed : decayed r with
  | none => rw [records_decayRow_none hdecayed]
  | some confidence =>
    have hwritten : (updateWhere (fun row => row.id = r.id) (written confidence nowText) db.records).map (·.id) =
        db.records.map (·.id) := map_key_updateWhere fun _ _ => rfl
    rw [records_decayRow_some hdecayed]
    split
    · exact (map_key_updateWhere (f := evicted nowText) fun _ _ => rfl).trans hwritten
    · exact hwritten

theorem ids_foldl (rows : List MemoryRecord) (db : Database) :
    (rows.foldl (decayRow decayed minConfidence nowText) db).records.map (·.id) = db.records.map (·.id) := by
  induction rows generalizing db with
  | nil => rfl
  | cons r rows ih => rw [List.foldl_cons, ih, ids_decayRow]

end Rows

section Schedules
variable {platform : Platform} {cfg : DecaySettings} {db : Database} {confidence : ℚ} {start last : DateTime} {r : MemoryRecord}

theorem applyDecay_some {now : DateTime} {after : Database} (h : applyDecay platform cfg db now = some after) :
    ∃ cutoff, now.addMicros (-cfg.interval) = some cutoff ∧
      after = (db.records.filter fun r => !r.isDeleted).foldl
        (decayRow (fun r => (newConfidence platform cfg now cutoff r).join) cfg.minConfidence (toIsoUtc now)) db := by
  rw [applyDecay] at h
  split at h
  · cases h
  · next cutoff hcutoff =>
    split at h
    · cases h
    · exact ⟨cutoff, hcutoff, (Option.some.inj h).symm⟩

theorem uniqueKey_collect (hids : UniqueKey (·.id) db.records) (now : DateTime) :
    UniqueKey (·.id) (collect platform cfg db now).records := by
  rw [collect]
  cases hafter : applyDecay platform cfg db now with
  | none => exact hids
  | some after =>
    obtain ⟨cutoff, -, rfl⟩ := applyDecay_some hafter
    rw [Option.getD_some, UniqueKey, ids_foldl]
    exact hids

/-- The collector decays to zero at the least, without a multiplier, and reads the times that it writes. -/
structure Setting (platform : Platform) (cfg : DecaySettings) (confidence : ℚ) : Prop where
  reads : ∀ t, platform.fromIsoformat (toIsoUtc t) = some (When.aware t)
  disuse : NoDisuse cfg
  least : cfg.minConfidence ≤ 0
  nonneg : 0 ≤ confidence

theorem parseWhen_toIsoUtc (h : Setting platform cfg confidence) (t : DateTime) : parseWhen platform (toIsoUtc t) = some (.aware t) := by
  rw [parseWhen, if_neg, h.reads]
  intro hempty
  have hread := readIso_toIsoUtc t
  rw [hempty] at hread
  have hnone : readIso "" = none := by decide
  rw [hnone] at hread
  cases hread

/-- A run that is within the interval, or raises, leaves the row alone; any other decays it to the
confidence that its time asks for. -/
theorem collect_cases (hset : Setting platform cfg confidence) (hids : UniqueKey (·.id) db.records) {id : String}
    (hrow : rowOf db id = some r) (h : Tracks platform cfg confidence start last r) (now : DateTime) :
    (rowOf (collect platform cfg db now) id = some r ∧
      ((applyDecay platform cfg db now).isSome → ¬ cfg.interval < now.micros - last.micros)) ∨
    (rowOf (collect platform cfg db now) id = some (written (decayedConfidence cfg confidence start now) (toIsoUtc now) r) ∧
      cfg.interval < now.micros - last.micros) := by
  obtain rfl : r.id = id := (lookup_some hrow).2
  rw [collect]
  cases hafter : applyDecay platform cfg db now with
  | none => exact .inl ⟨hrow, fun hsome => nomatch hsome⟩
  | some after =>
    obtain ⟨cutoff, hcutoff, rfl⟩ := applyDecay_some hafter
    have hmicros := addMicros_eq_some_iff.mp hcutoff
    have hlive : r ∈ db.records.filter fun r => !r.isDeleted := by
      rw [List.mem_filter, h.live]
      exact ⟨(lookup_some hrow).1, rfl⟩
    have hdistinct : UniqueKey (·.id) (db.records.filter fun r => !r.isDeleted) :=
      hids.sublist (List.filter_sublist.map _)
    rcases le_or_gt cutoff last with hrecent | hpast
    · refine .inl ⟨?_, fun _ => ?_⟩
      · rw [Option.getD_some, rowOf_foldl_eq, hrow]
        intro s hs hid
        obtain rfl : s = r := hdistinct.eq_of_key_eq hs hlive hid
        rw [newConfidence_recent h hrecent]
        rfl
      · have hle : cutoff.micros ≤ last.micros := hrecent
        omega
    · have hnew := newConfidence_past hset.disuse hset.nonneg h hcutoff hpast
      have hkeep : cfg.minConfidence ≤ decayedConfidence cfg confidence start now := hset.least.trans (le_max_left _ _)
      refine .inr ⟨?_, ?_⟩
      · rw [Option.getD_some]
        refine rowOf_foldl_decayed hdistinct hlive ?_ hkeep hrow
        rw [hnew]
        rfl
      · have hlt : last.micros < cutoff.micros := hpast
        omega

theorem Tracks.written (hset : Setting platform cfg confidence) (h : Tracks platform cfg confidence start last r) {now : DateTime}
    (hpast : cfg.interval < now.micros - last.micros) :
    Tracks platform cfg confidence start now (written (decayedConfidence cfg confidence start now) (toIsoUtc now) r) := by
  have hlater : last ≤ now := by
    have hpos := interval_pos cfg
    have hle : last.micros ≤ now.micros := by omega
    exact hle
  exact ⟨h.live, h.subject, parseWhen_toIsoUtc hset now, h.after.trans hlater, rfl⟩

theorem written_ne (hset : Setting platform cfg confidence) (h : Tracks platform cfg confidence start last r) {now : DateTime}
    (hpast : cfg.interval < now.micros - last.micros) :
    ConfidenceDecay.written (decayedConfidence cfg confidence start now) (toIsoUtc now) r ≠ r := by
  intro heq
  have hupdated := h.updated
  rw [← heq] at hupdated
  have hsame : When.aware now = When.aware last := Option.some.inj ((parseWhen_toIsoUtc hset now).symm.trans hupdated)
  have hpos := interval_pos cfg
  rw [When.aware.inj hsame] at hpast
  omega

theorem collect_tracks (hset : Setting platform cfg confidence) (hids : UniqueKey (·.id) db.records) {id : String}
    (hrow : rowOf db id = some r) (h : Tracks platform cfg confidence start last r) (now : DateTime) :
    (∃ r', rowOf (collect platform cfg db now) id = some r' ∧
      Tracks platform cfg confidence start (if Decays platform cfg db id now then now else last) r') ∧
    ((applyDecay platform cfg db now).isSome → (Decays platform cfg db id now ↔ cfg.interval < now.micros - last.micros)) := by
  obtain ⟨hsame, hrecent⟩ | ⟨hwritten, hpast⟩ := collect_cases hset hids hrow h now
  · have hno : ¬ Decays platform cfg db id now := not_not.mpr (hsame.trans hrow.symm)
    refine ⟨⟨r, hsame, ?_⟩, ?_⟩
    · rw [if_neg hno]
      exact h
    · intro hdone
      exact iff_of_false hno (hrecent hdone)
  · have hyes : Decays platform cfg db id now := by
      intro heq
      rw [hwritten, hrow] at heq
      exact written_ne hset h hpast (Option.some.inj heq)
    refine ⟨⟨_, hwritten, ?_⟩, ?_⟩
    · rw [if_pos hyes]
      exact h.written hset hpast
    · intro _
      exact iff_of_true hyes hpast

theorem run_tracks (hset : Setting platform cfg confidence) (hids : UniqueKey (·.id) db.records) {id : String} (hrow : rowOf db id = some r)
    (h : Tracks platform cfg confidence start last r) (times : List DateTime) :
    UniqueKey (·.id) (run (collect platform cfg) db times).records ∧
    ∃ r', rowOf (run (collect platform cfg) db times) id = some r' ∧
      Tracks platform cfg confidence start (lastDecay platform cfg id last db times) r' := by
  induction times generalizing db last r with
  | nil => exact ⟨hids, r, hrow, h⟩
  | cons now times ih =>
    obtain ⟨⟨r', hrow', htracks⟩, -⟩ := collect_tracks hset hids hrow h now
    rw [run_cons, lastDecay]
    exact ih (uniqueKey_collect hids now) hrow' htracks

/-- After any runs the confidence is that of the time of the last one that decayed the record, which a run does
exactly when more than the interval has passed. -/
theorem decay_schedule (hset : Setting platform cfg r.confidence) (hids : UniqueKey (·.id) db.records) (hr : r ∈ db.records)
    (hlive : r.isDeleted = false) (hsubject : scopeIsExempt platform cfg r.scope r.recordType = false)
    (hupdated : parseWhen platform r.updatedAt = some (.aware start)) (times : List DateTime) :
    (∃ r', rowOf (run (collect platform cfg) db times) r.id = some r' ∧
      r'.confidence = decayedConfidence cfg r.confidence start (lastDecay platform cfg r.id start db times)) ∧
    ∀ (done rest : List DateTime) (now : DateTime), times = done ++ now :: rest →
      (applyDecay platform cfg (run (collect platform cfg) db done) now).isSome →
        (Decays platform cfg (run (collect platform cfg) db done) r.id now ↔
          cfg.interval < now.micros - (lastDecay platform cfg r.id start db done).micros) := by
  have hrow : rowOf db r.id = some r := (hids.lookup_eq_some_iff).mpr ⟨hr, rfl⟩
  have hstart : Tracks platform cfg r.confidence start start r := by
    refine ⟨hlive, hsubject, hupdated, le_rfl, ?_⟩
    rw [decayedConfidence, sub_self, zero_div, mul_zero, sub_zero, max_eq_right hset.nonneg]
  constructor
  · obtain ⟨-, r', hrow', htracks⟩ := run_tracks hset hids hrow hstart times
    exact ⟨r', hrow', htracks.clamped⟩
  · intro done rest now _ hdone
    obtain ⟨hids', r', hrow', htracks⟩ := run_tracks hset hids hrow hstart done
    exact (collect_tracks hset hids' hrow' htracks now).2 hdone

end Schedules

def plainPlatform : Platform where
  fromIsoformat text := (readIso text).map .aware
  isSession scope := scope = "session:1"

theorem plainPlatform_reads (t : DateTime) : plainPlatform.fromIsoformat (toIsoUtc t) = some (When.aware t) := by
  simp only [plainPlatform, readIso_toIsoUtc, Option.map_some]

def daily : DecaySettings := { intervalDays := 1, decayRate := 1 / 10 }

theorem daily_setting : Setting plainPlatform daily (1 / 2) := by
  refine ⟨plainPlatform_reads, .inl rfl, le_rfl, ?_⟩
  norm_num

theorem day_lt_endOfTime (n : Fin 31) : n * microsPerDay < endOfTime := by
  have hn := n.isLt
  rw [microsPerDay, endOfTime, microsPerDay]
  omega

def day (n : Fin 31) : DateTime := ⟨n * microsPerDay, day_lt_endOfTime n⟩

def updatedRecord : MemoryRecord := { note "a" with updatedAt := toIsoUtc (day 1) }

theorem updatedRecord_updated : parseWhen plainPlatform updatedRecord.updatedAt = some (When.aware (day 1)) :=
  parseWhen_toIsoUtc daily_setting (day 1)

theorem decay_schedule_daily :
    (∃ r', rowOf (run (collect plainPlatform daily) { records := [updatedRecord] } [day 2, day 4, day 7]) "a" = some r' ∧
      r'.confidence = decayedConfidence daily (1 / 2) (day 1)
        (lastDecay plainPlatform daily "a" (day 1) { records := [updatedRecord] } [day 2, day 4, day 7])) ∧
    ∀ (done rest : List DateTime) (now : DateTime), [day 2, day 4, day 7] = done ++ now :: rest →
      (applyDecay plainPlatform daily (run (collect plainPlatform daily) { records := [updatedRecord] } done) now).isSome →
        (Decays plainPlatform daily (run (collect plainPlatform daily) { records := [updatedRecord] } done) "a" now ↔
          daily.interval < now.micros - (lastDecay plainPlatform daily "a" (day 1) { records := [updatedRecord] } done).micros) := by
  have hids : UniqueKey (·.id) ({ records := [updatedRecord] } : Database).records := List.nodup_singleton _
  exact decay_schedule daily_setting hids List.mem_cons_self rfl (by decide +kernel) updatedRecord_updated [day 2, day 4, day 7]

def pinnedRecord : MemoryRecord := { updatedRecord with recordType := "pin" }

theorem pinned_not_decayed :
    parseWhen plainPlatform pinnedRecord.updatedAt = some (When.aware (day 1)) ∧
    (applyDecay plainPlatform daily { records := [pinnedRecord] } (day 9)).isSome ∧
    ¬ (Decays plainPlatform daily { records := [pinnedRecord] } "a" (day 9) ↔
      daily.interval < (day 9).micros - (day 1).micros) := by
  have hexempt : scopeIsExempt plainPlatform daily pinnedRecord.scope pinnedRecord.recordType = true := by decide +kernel
  have hcutoff : (day 9).addMicros (-daily.interval) = some (day 8) := by
    rw [addMicros_eq_some_iff]
    decide +kernel
  have hnew : newConfidence plainPlatform daily (day 9) (day 8) pinnedRecord = some none := by
    rw [newConfidence, hexempt]
    rfl
  have hrun : applyDecay plainPlatform daily { records := [pinnedRecord] } (day 9) = some { records := [pinnedRecord] } := by
    have hlive : [pinnedRecord].filter (fun r => !r.isDeleted) = [pinnedRecord] := rfl
    rw [applyDecay, hcutoff]
    dsimp only
    rw [hlive, if_neg (by simp [hnew]), Database.applyConfidenceDecay, hlive, List.foldl_cons, List.foldl_nil, decayRow, hnew]
    rfl
  refine ⟨updatedRecord_updated, by rw [hrun]; rfl, ?_⟩
  have hsame : collect plainPlatform daily { records := [pinnedRecord] } (day 9) = { records := [pinnedRecord] } := by
    rw [collect, hrun]
    rfl
  have hlate : daily.interval < (day 9).micros - (day 1).micros := by decide +kernel
  intro heq
  exact heq.mpr hlate (by rw [hsame])

end OpenMinion.ConfidenceDecay
