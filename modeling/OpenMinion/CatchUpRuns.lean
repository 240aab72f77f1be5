import OpenMinion.CollapsedOutages
import OpenMinion.CronAdmission
import OpenMinion.IsoReading
import OpenMinion.ListPositions

/-!
# Occurrences that a tick catches up

A tick selects the last occurrences of a job and moves its due time behind all of them. Only as
many as there are free slots become runs.
-/
namespace OpenMinion.CatchUpRuns
open CollapsedOutages CronAdmission CronOccurrences CronOperations CronSchedules CronStore CronTables CronTransitions IsoReading IsoTimestamps
open KeyedTables ListPositions PythonText SessionTables TransitionRuns

def occurrence (env : ScheduleEnv) (schedule : Schedule) (jobId : String) : ℕ → DateTime → Option DateTime
  | 0, due => some due
  | n + 1, due =>
    if schedule.isAt then none
    else match computeNextDue env schedule due jobId (some due) with
      | .ok (some next) => occurrence env schedule jobId n next
      | _ => none

/-- The schedule goes on after the present, and after each occurrence from `start`. -/
def GoesForward (env : ScheduleEnv) (schedule : Schedule) (jobId : String) (now start : DateTime) : Prop :=
  ∀ t next, (t = now ∨ ∃ n, occurrence env schedule jobId n start = some t) →
    computeNextDue env schedule t jobId (some t) = .ok (some next) → t < next

def Recent (maxLatenessS : ℤ) (now t : DateTime) : Prop := (now.micros : ℤ) ≤ t.micros + max 0 maxLatenessS * 1000000

instance (maxLatenessS : ℤ) (now t : DateTime) : Decidable (Recent maxLatenessS now t) :=
  inferInstanceAs (Decidable ((now.micros : ℤ) ≤ t.micros + max 0 maxLatenessS * 1000000))

section
variable (env : ScheduleEnv) (job : CronJobRow) (now start : DateTime)

def jobOccurrence (n : ℕ) : Option DateTime := occurrence env job.schedule job.jobId n start

/-- One of the last `n` occurrences that are recent and have passed. -/
def AmongLast (n : ℕ) (t : DateTime) : Prop :=
  ∃ k, jobOccurrence env job start k = some t ∧ Recent job.maxLatenessS now t ∧ t ≤ now ∧
    ∀ t', jobOccurrence env job start (k + n) = some t' → now < t'

/-- As many of the last `n` among the first 512 occurrences come before it as there are free slots. -/
def Dropped (n room : ℕ) (t : DateTime) : Prop :=
  ∃ k u, jobOccurrence env job start (k + room) = some t ∧ t ≤ now ∧ k + room < 512 ∧
    jobOccurrence env job start k = some u ∧ Recent job.maxLatenessS now u ∧
    (k + n < 512 → ∀ t', jobOccurrence env job start (k + n) = some t' → now < t')

end

def HasRow (db : CronDb) (jobId : String) (t : DateTime) : Prop := ∃ r ∈ db.runs, r.jobId = some jobId ∧ r.dueAt = toIsoUtc t

def Waits (env : ScheduleEnv) (db : CronDb) (jobId : String) (t : DateTime) : Prop :=
  ∃ j ∈ db.jobs, j.jobId = jobId ∧ ∃ text due, j.nextDueAt = some text ∧ env.parseIso (strip text) = some due ∧ due ≤ t

def maxActive (job : CronJobRow) : ℕ := if stripOr job.concurrencyKey ≠ "" then 1 else (max 1 job.maxConcurrency).toNat

def freeSlots (db : CronDb) (job : CronJobRow) : ℕ := maxActive job - activeCronRunCount db job.jobId (stripOr job.concurrencyKey)

section
variable {env : ScheduleEnv} {schedule : Schedule} {jobId : String} {now start : DateTime}

theorem occurrence_succ {n : ℕ} {t : DateTime} (h : occurrence env schedule jobId (n + 1) start = some t) :
    schedule.isAt = false ∧ ∃ next, computeNextDue env schedule start jobId (some start) = .ok (some next) ∧
      occurrence env schedule jobId n next = some t := by
  rw [occurrence] at h
  by_cases hat : schedule.isAt = true
  · rw [if_pos hat] at h
    cases h
  · rw [if_neg hat] at h
    refine ⟨by simpa using hat, ?_⟩
    split at h
    · next next hnext => exact ⟨next, hnext, h⟩
    · cases h

theorem occurrence_of_next (hat : schedule.isAt = false) {next : DateTime}
    (hnext : computeNextDue env schedule start jobId (some start) = .ok (some next)) (n : ℕ) :
    occurrence env schedule jobId (n + 1) start = occurrence env schedule jobId n next := by
  rw [occurrence, if_neg (by simp [hat]), hnext]

theorem goesForward_of_recurring {platform : Platform} (h : Recurring platform schedule) :
    GoesForward (scheduleEnv platform) schedule jobId now start :=
  fun _ _ _ hnext => lt_of_computeNextDue h hnext

theorem GoesForward.lt (h : GoesForward env schedule jobId now start) {next : DateTime}
    (hnext : computeNextDue env schedule start jobId (some start) = .ok (some next)) : start < next :=
  h start next (.inr ⟨0, rfl⟩) hnext

theorem GoesForward.after (h : GoesForward env schedule jobId now start) (hat : schedule.isAt = false) {next : DateTime}
    (hnext : computeNextDue env schedule start jobId (some start) = .ok (some next)) : GoesForward env schedule jobId now next := by
  rintro t later (rfl | ⟨n, ht⟩) hlater
  · exact h t later (.inl rfl) hlater
  · rw [← occurrence_of_next hat hnext] at ht
    exact h t later (.inr ⟨n + 1, ht⟩) hlater

theorem le_occurrence (hforward : GoesForward env schedule jobId now start) {n : ℕ} {t : DateTime}
    (h : occurrence env schedule jobId n start = some t) : start ≤ t := by
  induction n generalizing start with
  | zero =>
    cases h
    exact le_refl t
  | succ n ih =>
    obtain ⟨hat, next, hnext, hrest⟩ := occurrence_succ h
    exact (hforward.lt hnext).le.trans (ih (hforward.after hat hnext) hrest)

theorem occurrence_lt (hforward : GoesForward env schedule jobId now start) {m n : ℕ} (hlt : m < n) {t t' : DateTime}
    (ht : occurrence env schedule jobId m start = some t) (ht' : occurrence env schedule jobId n start = some t') : t < t' := by
  induction m generalizing start n with
  | zero =>
    obtain ⟨n, rfl⟩ : ∃ k, n = k + 1 := ⟨n - 1, by omega⟩
    cases ht
    obtain ⟨hat, next, hnext, hrest⟩ := occurrence_succ ht'
    exact (hforward.lt hnext).trans_le (le_occurrence (hforward.after hat hnext) hrest)
  | succ m ih =>
    obtain ⟨n, rfl⟩ : ∃ k, n = k + 1 := ⟨n - 1, by omega⟩
    obtain ⟨hat, next, hnext, hrest⟩ := occurrence_succ ht
    rw [occurrence_of_next hat hnext] at ht'
    exact ih (hforward.after hat hnext) (Nat.lt_of_succ_lt_succ hlt) hrest ht'

theorem occurrence_inj (hforward : GoesForward env schedule jobId now start) {m n : ℕ} {t : DateTime}
    (hm : occurrence env schedule jobId m start = some t) (hn : occurrence env schedule jobId n start = some t) : m = n := by
  rcases lt_trichotomy m n with hlt | heq | hlt
  · exact absurd (occurrence_lt hforward hlt hm hn) (lt_irrefl t)
  · exact heq
  · exact absurd (occurrence_lt hforward hlt hn hm) (lt_irrefl t)

/-- What the loop leaves: the occurrences that have passed, up to its limit, and a cursor behind
them. -/
structure Collected (env : ScheduleEnv) (schedule : Schedule) (jobId : String) (now start : DateTime) (fuel : ℕ)
    (candidates : List DateTime) (cursor : Option DateTime) : Prop where
  getElem : ∀ i t, candidates[i]? = some t ↔ i < fuel ∧ occurrence env schedule jobId i start = some t ∧ t ≤ now
  sorted : candidates.Pairwise (· < ·)
  le_cursor : ∀ c, cursor = some c → start ≤ c
  behind : ∀ c, cursor = some c → ∀ i t, occurrence env schedule jobId i start = some t → t ≤ now → (c ≤ t ↔ fuel ≤ i)
  ended : cursor = none → ∀ i t, occurrence env schedule jobId i start = some t → i < fuel

theorem Collected.single {fuel : ℕ} (hle : start ≤ now)
    (hlast : ∀ n, occurrence env schedule jobId (n + 1) start = none) :
    Collected env schedule jobId now start (fuel + 1) [start] none := by
  have hzero : ∀ i t, occurrence env schedule jobId i start = some t → i = 0 := by
    intro i t h
    cases i with
    | zero => rfl
    | succ i =>
      rw [hlast i] at h
      cases h
  refine ⟨fun i t => ?_, List.pairwise_singleton _ _, (fun _ hc => nomatch hc), (fun _ hc => nomatch hc), fun _ i t h => ?_⟩
  · constructor
    · intro h
      cases i with
      | zero =>
        cases h
        exact ⟨Nat.succ_pos fuel, rfl, hle⟩
      | succ i => cases h
    · rintro ⟨-, h, -⟩
      obtain rfl := hzero i t h
      exact h
  · rw [hzero i t h]
    exact Nat.succ_pos fuel

theorem dueCandidates_collected (hforward : GoesForward env schedule jobId now start) {fuel : ℕ} {candidates : List DateTime}
    {cursor : Option DateTime} (h : dueCandidates env schedule jobId now fuel start = .ok (candidates, cursor)) :
    Collected env schedule jobId now start fuel candidates cursor := by
  induction fuel generalizing start candidates with
  | zero =>
    cases h
    refine ⟨fun i t => ?_, .nil, ?_, ?_, by rintro ⟨⟩⟩
    · simp
    · rintro c ⟨⟩
      exact le_refl start
    · rintro c ⟨⟩ i t hi -
      exact iff_of_true (le_occurrence hforward hi) (Nat.zero_le i)
  | succ fuel ih =>
    rw [dueCandidates] at h
    by_cases hfuture : now < start
    · rw [if_pos hfuture] at h
      cases h
      have hnone : ∀ i t, occurrence env schedule jobId i start = some t → ¬ t ≤ now := fun i t hi hle =>
        absurd (hfuture.trans_le (le_occurrence hforward hi)) (not_lt.mpr hle)
      refine ⟨fun i t => ?_, .nil, ?_, ?_, by rintro ⟨⟩⟩
      · exact iff_of_false (by rintro ⟨⟩) fun h => hnone i t h.2.1 h.2.2
      · rintro c ⟨⟩
        exact le_refl start
      · rintro c ⟨⟩ i t hi hle
        exact absurd hle (hnone i t hi)
    · rw [if_neg hfuture] at h
      have hle : start ≤ now := not_lt.mp hfuture
      by_cases hat : schedule.isAt = true
      · rw [if_pos hat] at h
        cases h
        exact .single hle fun n => by rw [occurrence, if_pos hat]
      · rw [if_neg hat] at h
        have hrecurs : schedule.isAt = false := by simpa using hat
        obtain ⟨found, hfound, h⟩ := bind_eq_ok.mp h
        cases found with
        | none =>
          cases h
          exact .single hle fun n => by rw [occurrence, if_neg hat, hfound]
        | some next =>
          obtain ⟨⟨rest, last⟩, hrest, h⟩ := bind_eq_ok.mp h
          cases h
          have hcollected := ih (hforward.after hrecurs hfound) hrest
          have hshift := occurrence_of_next hrecurs hfound
          have hlt := hforward.lt hfound
          refine ⟨fun i t => ?_, ?_, fun c hc => hlt.le.trans (hcollected.le_cursor c hc), fun c hc i t hi hpassed => ?_,
            fun hnone i t hi => ?_⟩
          · cases i with
            | zero =>
              constructor
              · intro hi
                cases hi
                exact ⟨Nat.succ_pos fuel, rfl, hle⟩
              · exact fun hi => hi.2.1
            | succ i =>
              rw [List.getElem?_cons_succ, hcollected.getElem, hshift, Nat.succ_lt_succ_iff]
          · refine List.pairwise_cons.mpr ⟨fun t ht => ?_, hcollected.sorted⟩
            obtain ⟨i, hi⟩ := List.mem_iff_getElem?.mp ht
            exact hlt.trans_le (le_occurrence (hforward.after hrecurs hfound) ((hcollected.getElem i t).mp hi).2.1)
          · cases i with
            | zero =>
              cases hi
              exact iff_of_false (not_le.mpr (hlt.trans_le (hcollected.le_cursor c hc))) (Nat.not_succ_le_zero fuel)
            | succ i =>
              rw [hshift] at hi
              rw [hcollected.behind c hc i t hi hpassed, Nat.succ_le_succ_iff]
          · cases i with
            | zero => exact Nat.succ_pos fuel
            | succ i =>
              rw [hshift] at hi
              exact Nat.succ_lt_succ (hcollected.ended hnone i t hi)

theorem Collected.none_iff {fuel : ℕ} {candidates : List DateTime} {cursor : Option DateTime}
    (h : Collected env schedule jobId now start fuel candidates cursor) (i : ℕ) :
    candidates[i]? = none ↔ (i < fuel → ∀ t, occurrence env schedule jobId i start = some t → now < t) := by
  constructor
  · intro hnone hlt t ht
    by_contra hpassed
    have hsome := (h.getElem i t).mpr ⟨hlt, ht, not_lt.mp hpassed⟩
    rw [hnone] at hsome
    cases hsome
  · intro hlater
    cases hi : candidates[i]? with
    | none => rfl
    | some t =>
      obtain ⟨hlt, ht, hpassed⟩ := (h.getElem i t).mp hi
      exact absurd (hlater hlt t ht) (not_lt.mpr hpassed)

theorem occurrence_mono (hforward : GoesForward env schedule jobId now start) {m n : ℕ} (hle : m ≤ n) {t t' : DateTime}
    (ht : occurrence env schedule jobId m start = some t) (ht' : occurrence env schedule jobId n start = some t') : t ≤ t' := by
  rcases hle.eq_or_lt with rfl | hlt
  · exact (Option.some.inj (ht.symm.trans ht')).le
  · exact (occurrence_lt hforward hlt ht ht').le

end

theorem cutoff_le_iff {now cutoff : DateTime} {maxLatenessS : ℤ}
    (h : orOverflow (now.addSeconds (-max 0 maxLatenessS)) = .ok cutoff) (t : DateTime) :
    cutoff ≤ t ↔ Recent maxLatenessS now t := by
  have hsum : now.addMicros (-max 0 maxLatenessS * 1000000) = some cutoff := by
    change orOverflow (now.addMicros _) = _ at h
    generalize now.addMicros (-max 0 maxLatenessS * 1000000) = sum at h
    cases sum with
    | none => cases h
    | some sum =>
      cases h
      rfl
  have hmicros := addMicros_eq_some_iff.mp hsum
  rw [Int.neg_mul] at hmicros
  change cutoff.micros ≤ t.micros ↔ (now.micros : ℤ) ≤ t.micros + max 0 maxLatenessS * 1000000
  omega

section
variable {env : ScheduleEnv} {job : CronJobRow} {now start : DateTime} {n : ℕ}

/-- What the selection makes of one of the last occurrences: it is left to a later tick, or it is
selected and the due time moves behind it. -/
structure Selected (env : ScheduleEnv) (job : CronJobRow) (now start : DateTime) (n : ℕ) (selected : List DateTime)
    (nextDue : Option DateTime) (t : DateTime) : Prop where
  mem : t ∈ selected
  nodup : selected.Nodup
  behind : ∀ next, nextDue = some next → t < next
  dropped : ∀ room, t ∈ selected.drop room ↔ Dropped env job now start n room t

theorem mem_last_candidates (hforward : GoesForward env job.schedule job.jobId now start) {candidates : List DateTime}
    {cursor : Option DateTime} (hcollected : Collected env job.schedule job.jobId now start 512 candidates cursor)
    {cutoff : DateTime} (hcutoff : ∀ u, cutoff ≤ u ↔ Recent job.maxLatenessS now u) {k : ℕ} {t : DateTime}
    (hk : candidates[k]? = some t) (n room : ℕ) :
    t ∈ ((candidates.filter fun u => cutoff ≤ u).drop ((candidates.filter fun u => cutoff ≤ u).length - n)).drop room ↔
      Dropped env job now start n room t := by
  obtain ⟨hlt, hocc, hpassed⟩ := (hcollected.getElem k t).mp hk
  have hnodup : candidates.Nodup := hcollected.sorted.imp fun h => h.ne
  have hupward : candidates.Pairwise fun x y => decide (cutoff ≤ x) = true → decide (cutoff ≤ y) = true := by
    refine hcollected.sorted.imp fun hxy hx => ?_
    exact decide_eq_true ((of_decide_eq_true hx).trans hxy.le)
  rw [mem_last_drop_iff hupward hnodup hk]
  constructor
  · rintro ⟨hle, ⟨u, hu, hrecent⟩, hnone⟩
    obtain ⟨-, hoccU, -⟩ := (hcollected.getElem (k - room) u).mp hu
    refine ⟨k - room, u, ?_, hpassed, by omega, hoccU, (hcutoff u).mp (of_decide_eq_true hrecent), (hcollected.none_iff _).mp hnone⟩
    rw [Nat.sub_add_cancel hle]
    exact hocc
  · rintro ⟨j, u, hj, -, hjlt, hu, hrecent, hlater⟩
    obtain rfl := occurrence_inj hforward hj hocc
    have huPassed : u ≤ now := (occurrence_mono hforward (Nat.le_add_right j room) hu hocc).trans hpassed
    have hgetU : candidates[j]? = some u := (hcollected.getElem j u).mpr ⟨by omega, hu, huPassed⟩
    rw [Nat.add_sub_cancel]
    exact ⟨Nat.le_add_left room j, ⟨u, hgetU, decide_eq_true ((hcutoff u).mpr hrecent)⟩, (hcollected.none_iff _).mpr hlater⟩

theorem selectDuePoints_catchUp (hforward : GoesForward env job.schedule job.jobId now start) (hpolicy : job.misfirePolicy = .catchUp n)
    {text : String} (htext : job.nextDueAt = some text) (hne : strip text ≠ "") (hstart : env.parseIso (strip text) = some start)
    {selected : List DateTime} {nextDue : Option DateTime}
    (h : selectDuePoints env job.schedule job.misfirePolicy job.maxLatenessS job.jobId job.nextDueAt now = .ok (selected, nextDue))
    {t : DateTime} (hlast : AmongLast env job now start (max 1 n) t) :
    (∃ next, nextDue = some next ∧ next ≤ t) ∧ (∀ room, ¬ Dropped env job now start (max 1 n) room t) ∨
      Selected env job now start (max 1 n) selected nextDue t := by
  obtain ⟨k, hk, hrecent, hpassed, hlater⟩ := hlast
  have hstrip : stripOr job.nextDueAt = strip text := by rw [htext]; rfl
  rw [selectDuePoints, hstrip, if_neg hne] at h
  obtain ⟨first, hfirst, h⟩ := bind_eq_ok.mp h
  obtain rfl : start = first := by
    rw [parseIsoDatetime, hstart] at hfirst
    exact Except.ok.inj hfirst
  obtain ⟨⟨candidates, cursor⟩, hcandidates, h⟩ := bind_eq_ok.mp h
  obtain ⟨cutoff, hcutoff, h⟩ := bind_eq_ok.mp h
  have hcollected := dueCandidates_collected hforward hcandidates
  have hrecentIff := cutoff_le_iff hcutoff
  by_cases hcap : 512 ≤ k
  · -- the loop ended before it, and its cursor is the new due time
    refine .inl ⟨?_, ?_⟩
    · obtain ⟨k, rfl⟩ : ∃ m, k = m + 1 := ⟨k - 1, by omega⟩
      obtain ⟨hat, -⟩ := occurrence_succ hk
      simp only [hat] at h
      cases cursor with
      | none => exact absurd (hcollected.ended rfl _ t hk) (not_lt.mpr hcap)
      | some c =>
        cases h
        exact ⟨c, rfl, (hcollected.behind c rfl _ t hk hpassed).mpr hcap⟩
    · rintro room ⟨j, u, hj, -, hlt, -⟩
      have heq := occurrence_inj hforward hj hk
      omega
  · have hget : candidates[k]? = some t := (hcollected.getElem k t).mpr ⟨by omega, hk, hpassed⟩
    have hmem := mem_last_candidates hforward hcollected hrecentIff hget (max 1 n)
    have hdropped : Dropped env job now start (max 1 n) 0 t :=
      ⟨k, t, hk, hpassed, by omega, hk, hrecent, fun _ => hlater⟩
    have hfound := (hmem 0).mpr hdropped
    rw [List.drop_zero] at hfound
    have hselected : selectByPolicy job.misfirePolicy job.schedule now candidates (candidates.filter fun u => cutoff ≤ u) =
        (candidates.filter fun u => cutoff ≤ u).drop ((candidates.filter fun u => cutoff ≤ u).length - max 1 n) := by
      rw [hpolicy, selectByPolicy]
      exact if_neg (by simp [List.ne_nil_of_mem hfound])
    have hnodup : ((candidates.filter fun u => cutoff ≤ u).drop ((candidates.filter fun u => cutoff ≤ u).length - max 1 n)).Nodup :=
      ((hcollected.sorted.imp fun h => h.ne).filter _).sublist (List.drop_sublist _ _)
    refine .inr ?_
    dsimp only at h
    rw [hselected] at h
    by_cases hat : job.schedule.isAt = true
    · simp only [hat, if_true] at h
      cases h
      exact ⟨hfound, hnodup, by rintro _ ⟨⟩, hmem⟩
    · simp only [hat] at h
      cases cursor with
      | none =>
        obtain ⟨again, hagain, h⟩ := bind_eq_ok.mp h
        cases h
        refine ⟨hfound, hnodup, ?_, hmem⟩
        rintro next rfl
        exact hpassed.trans_lt (hforward _ _ (.inl rfl) hagain)
      | some c =>
        cases h
        refine ⟨hfound, hnodup, ?_, hmem⟩
        rintro next ⟨⟩
        exact not_le.mp fun hle => hcap ((hcollected.behind c rfl k t hk hpassed).mp hle)

end

section
variable {env : ScheduleEnv} {e : EnqueueDue} {owner leaseExpires : String} {db db' : CronDb} {job : CronJobRow} {start : DateTime}
variable {n : ℕ} {t : DateTime}

/-- An occurrence of the job is kept where its turn does not drop it, or it has a run already. -/
def KeptAtTurn (env : ScheduleEnv) (db : CronDb) (job : CronJobRow) (now start : DateTime) (n : ℕ) (t : DateTime) : Prop :=
  if isShortInterval job.schedule then HasRow db job.jobId t
  else 0 < freeSlots db job → Dropped env job now start n (freeSlots db job) t → HasRow db job.jobId t

theorem hasRow_insertRunIfNew {row : CronRunRow} {inserted : Bool} {u : DateTime} {jobId : String}
    (hjob : row.jobId = some jobId) (hdue : row.dueAt = toIsoUtc u) (h : db.insertRunIfNew row = .ok (db', inserted)) :
    db'.jobs = db.jobs ∧ ∀ t, HasRow db' jobId t ↔ HasRow db jobId t ∨ t = u := by
  rw [CronDb.insertRunIfNew] at h
  split at h
  · next hsame =>
    obtain ⟨rfl, -⟩ := Prod.mk.inj (Except.ok.inj h)
    obtain ⟨r, hr, hrow⟩ := List.any_eq_true.mp hsame
    simp only [CronDb.sameDue, Bool.and_eq_true, decide_eq_true_eq] at hrow
    refine ⟨rfl, fun t => ⟨.inl, ?_⟩⟩
    rintro (ht | rfl)
    · exact ht
    · exact ⟨r, hr, hrow.1.2.trans hjob, hrow.2.trans hdue⟩
  · split at h
    · obtain ⟨rfl, -⟩ := Prod.mk.inj (Except.ok.inj h)
      refine ⟨rfl, fun t => ⟨?_, ?_⟩⟩
      · rintro ⟨r, hr, hrJob, hrDue⟩
        rcases List.mem_append.mp hr with hr | hr
        · exact .inl ⟨r, hr, hrJob, hrDue⟩
        · rw [List.mem_singleton.mp hr, hdue] at hrDue
          exact .inr (toIsoUtc_injective hrDue).symm
      · rintro (⟨r, hr, hrow⟩ | rfl)
        · exact ⟨r, List.mem_append_left _ hr, hrow⟩
        · exact ⟨row, List.mem_append_right _ List.mem_cons_self, hjob, hdue⟩
    · cases h

theorem hasRow_insertDueRuns {jobId : String} {points : List DateTime} {offset : ℕ} {acc acc' : CronDb × List CronRunRow}
    (h : (points.zipIdx offset).foldlM (insertDueRuns e owner leaseExpires jobId) acc = .ok acc') :
    acc'.1.jobs = acc.1.jobs ∧ ∀ t, HasRow acc'.1 jobId t ↔ HasRow acc.1 jobId t ∨ t ∈ points := by
  induction points generalizing offset acc with
  | nil =>
    cases h
    exact ⟨rfl, fun t => by simp⟩
  | cons u points ih =>
    rw [List.zipIdx_cons, List.foldlM_cons] at h
    obtain ⟨next, hnext, h⟩ := bind_eq_ok.mp h
    rw [insertDueRuns] at hnext
    obtain ⟨⟨db₁, inserted⟩, hinsert, hnext⟩ := bind_eq_ok.mp hnext
    cases hnext
    obtain ⟨hjobs, hrows⟩ := hasRow_insertRunIfNew rfl rfl hinsert
    obtain ⟨hjobs', hrows'⟩ := ih h
    refine ⟨hjobs'.trans hjobs, fun t => ?_⟩
    rw [hrows', hrows, List.mem_cons, or_assoc]

theorem waits_updateJobs (hkey : UniqueKey CronJobRow.jobId db.jobs) (hjob : job ∈ db.jobs) {f : CronJobRow → CronJobRow}
    (hf : ∀ j, (f j).jobId = j.jobId) : Waits env (db.updateJobs (fun j => j.jobId = job.jobId) f) job.jobId t ↔
      ∃ text due, (f job).nextDueAt = some text ∧ env.parseIso (strip text) = some due ∧ due ≤ t := by
  constructor
  · rintro ⟨j, hj, hid, hwaits⟩
    obtain ⟨j₀, hj₀, rfl⟩ := mem_updateWhere.mp hj
    by_cases hsame : j₀.jobId = job.jobId
    · obtain rfl := hkey.eq_of_key_eq hj₀ hjob hsame
      rw [if_pos (decide_eq_true rfl)] at hwaits
      exact hwaits
    · rw [if_neg (by simpa using hsame)] at hid
      exact absurd hid hsame
  · intro hwaits
    refine ⟨f job, mem_updateWhere.mpr ⟨job, hjob, if_pos (decide_eq_true rfl)⟩, hf job, hwaits⟩

theorem waits_of_jobs (h : db'.jobs = db.jobs) (jobId : String) (t : DateTime) : Waits env db' jobId t ↔ Waits env db jobId t := by
  rw [Waits, Waits, h]

theorem persistDueDecision_catchUp (hpolicy : job.misfirePolicy = .catchUp n) {points : List DateTime} {nextDue : Option DateTime}
    {now freshId : String} (h : persistDueDecision db job points nextDue now freshId = .ok db') :
    db' = db.updateJobs (fun j => j.jobId = job.jobId) fun j => { j with nextDueAt := nextDue.map toIsoUtc, updatedAt := now } := by
  simp only [persistDueDecision] at h
  rw [if_neg (by simp [isMissedOneTime, hpolicy])] at h
  exact (Except.ok.inj h).symm

theorem enqueueJob_kept (hforward : GoesForward env job.schedule job.jobId e.now start) (hparse : ∀ u, env.parseIso (toIsoUtc u) = some u)
    (hpolicy : job.misfirePolicy = .catchUp n) {text : String} (htext : job.nextDueAt = some text) (hne : strip text ≠ "")
    (hstart : env.parseIso (strip text) = some start) {acc acc' : CronDb × List CronRunRow}
    (hkey : UniqueKey CronJobRow.jobId acc.1.jobs) (hjob : job ∈ acc.1.jobs)
    (h : enqueueJob env e owner leaseExpires acc job = .ok acc') (hlast : AmongLast env job e.now start (max 1 n) t) :
    HasRow acc'.1 job.jobId t ∨ Waits env acc'.1 job.jobId t ↔ KeptAtTurn env acc.1 job e.now start (max 1 n) t := by
  simp only [enqueueJob] at h
  rw [KeptAtTurn]
  by_cases hshort : isShortInterval job.schedule = true
  · rw [if_pos hshort] at h ⊢
    cases h
    refine or_iff_left fun hwaits => ?_
    obtain ⟨_, _, hnone, -⟩ := (waits_updateJobs hkey hjob (by intro _; rfl)).mp hwaits
    cases hnone
  · rw [if_neg hshort] at h ⊢
    change (if maxActive job ≤ activeCronRunCount acc.1 job.jobId (stripOr job.concurrencyKey) then _ else _) = _ at h
    by_cases hfull : maxActive job ≤ activeCronRunCount acc.1 job.jobId (stripOr job.concurrencyKey)
    · rw [if_pos hfull] at h
      cases h
      obtain ⟨k, hk, -⟩ := hlast
      refine iff_of_true (.inr ⟨job, hjob, rfl, text, start, htext, hstart, le_occurrence hforward hk⟩) fun hfree => ?_
      rw [freeSlots, Nat.sub_eq_zero_of_le hfull] at hfree
      exact absurd hfree (Nat.lt_irrefl 0)
    · rw [if_neg hfull] at h
      have hfree : 0 < freeSlots acc.1 job := Nat.sub_pos_of_lt (not_le.mp hfull)
      obtain ⟨⟨selected, nextDue⟩, hselect, h⟩ := bind_eq_ok.mp h
      obtain ⟨db₁, hdecision, h⟩ := bind_eq_ok.mp h
      obtain ⟨hjobs, hrows⟩ := hasRow_insertDueRuns h
      have hdb₁ := persistDueDecision_catchUp hpolicy hdecision
      have hwaits : Waits env acc'.1 job.jobId t ↔ ∃ next, nextDue = some next ∧ next ≤ t := by
        rw [waits_of_jobs hjobs, hdb₁]
        refine (waits_updateJobs hkey hjob (by intro _; rfl)).trans ?_
        constructor
        · rintro ⟨written, due, hwritten, hdue, hle⟩
          obtain ⟨next, hnext, rfl⟩ := Option.map_eq_some_iff.mp hwritten
          rw [strip_toIsoUtc, hparse] at hdue
          cases hdue
          exact ⟨_, hnext, hle⟩
        · rintro ⟨next, hnext, hle⟩
          exact ⟨toIsoUtc next, next, by simp [hnext], by rw [strip_toIsoUtc, hparse], hle⟩
      have hrow : HasRow acc'.1 job.jobId t ↔ HasRow acc.1 job.jobId t ∨ t ∈ selected.take (freeSlots acc.1 job) := by
        rw [hrows t, hdb₁]
        rfl
      rw [hwaits, hrow, forall_prop_of_true hfree]
      rcases selectDuePoints_catchUp hforward hpolicy htext hne hstart hselect hlast with ⟨hkept, hnot⟩ | hselected
      · exact iff_of_true (.inr hkept) fun hdropped => absurd hdropped (hnot _)
      · have hbehind : ¬ ∃ next, nextDue = some next ∧ next ≤ t := by
          rintro ⟨next, hnext, hle⟩
          exact absurd hle (not_le.mpr (hselected.behind next hnext))
        rw [or_iff_left hbehind, ← hselected.dropped]
        have hsplit := List.mem_append.mp ((List.take_append_drop (freeSlots acc.1 job) selected).symm ▸ hselected.mem)
        have hdisjoint := List.disjoint_take_drop hselected.nodup (le_refl (freeSlots acc.1 job))
        constructor
        · rintro (hold | htaken) hdrop
          · exact hold
          · exact absurd hdrop (hdisjoint htaken)
        · intro hdrop
          rcases hsplit with htaken | hlate
          · exact .inr htaken
          · exact .inl (hdrop hlate)

def SameRows (jobId : String) (db db' : CronDb) : Prop := ∀ j : CronJobRow, j.jobId = jobId → (j ∈ db'.jobs ↔ j ∈ db.jobs)

theorem SameRows.of_jobs {jobId : String} (h : db'.jobs = db.jobs) : SameRows jobId db db' := fun _ _ => by rw [h]

theorem SameRows.trans {jobId : String} {db₁ : CronDb} (h : SameRows jobId db db₁) (h' : SameRows jobId db₁ db') :
    SameRows jobId db db' := fun j hj => (h' j hj).trans (h j hj)

theorem SameRows.waits {jobId : String} (h : SameRows jobId db db') (t : DateTime) :
    Waits env db' jobId t ↔ Waits env db jobId t := by
  constructor
  · rintro ⟨j, hj, hid, hwaits⟩
    exact ⟨j, (h j hid).mp hj, hid, hwaits⟩
  · rintro ⟨j, hj, hid, hwaits⟩
    exact ⟨j, (h j hid).mpr hj, hid, hwaits⟩

theorem sameRows_updateJobs {jobId otherId : String} (hother : otherId ≠ jobId) {f : CronJobRow → CronJobRow}
    (hf : ∀ j, (f j).jobId = j.jobId) : SameRows jobId db (db.updateJobs (fun j => j.jobId = otherId) f) := by
  intro j hj
  constructor
  · intro hmem
    obtain ⟨j₀, hj₀, rfl⟩ := mem_updateWhere.mp hmem
    by_cases hsame : j₀.jobId = otherId
    · rw [if_pos (decide_eq_true hsame), hf] at hj
      exact absurd (hsame.symm.trans hj) hother
    · rw [if_neg (by simpa using hsame)]
      exact hj₀
  · intro hmem
    refine mem_updateWhere.mpr ⟨j, hmem, if_neg ?_⟩
    simpa using fun heq : j.jobId = otherId => hother (heq.symm.trans hj)

theorem insertRunIfNew_jobs {row : CronRunRow} {inserted : Bool} (h : db.insertRunIfNew row = .ok (db', inserted)) :
    db'.jobs = db.jobs := by
  rw [CronDb.insertRunIfNew] at h
  split at h
  · obtain ⟨rfl, -⟩ := Prod.mk.inj (Except.ok.inj h)
    rfl
  · split at h
    · obtain ⟨rfl, -⟩ := Prod.mk.inj (Except.ok.inj h)
      rfl
    · cases h

theorem sameRows_persistDueDecision {jobId : String} {row : CronJobRow} (hother : row.jobId ≠ jobId) {points : List DateTime}
    {nextDue : Option DateTime} {now freshId : String} (h : persistDueDecision db row points nextDue now freshId = .ok db') :
    SameRows jobId db db' := by
  simp only [persistDueDecision] at h
  split at h
  · obtain ⟨⟨db₂, _⟩, hinsert, h⟩ := bind_eq_ok.mp h
    obtain rfl := Except.ok.inj h
    refine .trans (.trans (sameRows_updateJobs hother ?_) (.of_jobs (insertRunIfNew_jobs hinsert))) (sameRows_updateJobs hother ?_)
    · exact fun _ => rfl
    · exact fun _ => rfl
  · obtain rfl := Except.ok.inj h
    exact sameRows_updateJobs hother fun _ => rfl

theorem sameRows_enqueueJob {jobId : String} {row : CronJobRow} (hother : row.jobId ≠ jobId) {acc acc' : CronDb × List CronRunRow}
    (h : enqueueJob env e owner leaseExpires acc row = .ok acc') : SameRows jobId acc.1 acc'.1 := by
  simp only [enqueueJob] at h
  split at h
  · obtain rfl := Except.ok.inj h
    exact sameRows_updateJobs hother fun _ => rfl
  · generalize (if stripOr row.concurrencyKey ≠ "" then 1 else (max 1 row.maxConcurrency).toNat) = maxForJob at h
    split at h
    · obtain rfl := Except.ok.inj h
      exact .of_jobs rfl
    · obtain ⟨⟨selected, nextDue⟩, -, h⟩ := bind_eq_ok.mp h
      obtain ⟨db₁, hdecision, h⟩ := bind_eq_ok.mp h
      exact (sameRows_persistDueDecision hother hdecision).trans (.of_jobs (hasRow_insertDueRuns h).1)

theorem hasRow_enqueueJob {jobId : String} {row : CronJobRow} (hother : row.jobId ≠ jobId) {acc acc' : CronDb × List CronRunRow}
    (h : enqueueJob env e owner leaseExpires acc row = .ok acc') (t : DateTime) :
    HasRow acc'.1 jobId t ↔ HasRow acc.1 jobId t := by
  obtain ⟨hadmitted, -⟩ := enqueueJob_ok h
  constructor
  · rintro ⟨r, hr, hid, hdue⟩
    rcases hadmitted.new r hr with hold | hnew
    · exact ⟨r, hold, hid, hdue⟩
    · exact absurd (Option.some.inj (hnew.symm.trans hid)) hother
  · rintro ⟨r, hr, hid, hdue⟩
    exact ⟨r, hadmitted.kept r hr, hid, hdue⟩

theorem foldlM_others {jobId : String} {rows : List CronJobRow} (hothers : ∀ row ∈ rows, row.jobId ≠ jobId)
    {acc acc' : CronDb × List CronRunRow} (h : rows.foldlM (enqueueJob env e owner leaseExpires) acc = .ok acc') :
    SameRows jobId acc.1 acc'.1 ∧ ∀ t, HasRow acc'.1 jobId t ↔ HasRow acc.1 jobId t := by
  refine foldlM_invariant
    (J := fun b => SameRows jobId acc.1 b.1 ∧ ∀ t, HasRow b.1 jobId t ↔ HasRow acc.1 jobId t) ?_ ⟨.of_jobs rfl, fun _ => Iff.rfl⟩ h
  rintro b row hrow b' ⟨hsame, hrows⟩ hok
  refine ⟨hsame.trans (sameRows_enqueueJob (hothers row hrow) hok), fun t => ?_⟩
  rw [hasRow_enqueueJob (hothers row hrow) hok, hrows]

/-- The state of the call when the turn of the job begins. -/
def AtTurn (env : ScheduleEnv) (db : CronDb) (e : EnqueueDue) (job : CronJobRow) (acc : CronDb × List CronRunRow) : Prop :=
  ∃ owner leaseExpires db₁ recovered earlier later,
    requiredArgument e.daemonId "daemon_id" = .ok owner ∧
    orOverflow (e.now.addSeconds (max 1 e.leaseTtlS)) = .ok leaseExpires ∧
    recoverExpiredCronRuns db e.now (max 100 (max 1 (min e.maxJobs 500) * 2)) = .ok (db₁, recovered) ∧
    db₁.paused = false ∧
    dueJobRows env db₁ (toIsoUtc e.now) e.now (max 1 (min e.maxJobs 500)).toNat = earlier ++ job :: later ∧
    earlier.foldlM (enqueueJob env e owner (toIsoUtc leaseExpires)) (db₁, []) = .ok acc

theorem dueJobRows_unique (hkey : UniqueKey CronJobRow.jobId db.jobs) (env : ScheduleEnv) (nowIso : String) (now : DateTime)
    (limit : ℕ) : UniqueKey CronJobRow.jobId (dueJobRows env db nowIso now limit) := by
  have hsorted : UniqueKey CronJobRow.jobId ((db.jobs.filter fun j => j.enabled && j.nextDueAt.isSome).insertionSort
      fun a b => a.nextDueAt.getD "" ≤ b.nextDueAt.getD "") := by
    have hfilter : UniqueKey CronJobRow.jobId (db.jobs.filter fun j => j.enabled && j.nextDueAt.isSome) :=
      hkey.sublist (List.filter_sublist.map _)
    exact (((List.perm_insertionSort _ _).map _).nodup_iff).mpr hfilter
  simp only [dueJobRows]
  split
  · exact hsorted.sublist (((List.take_sublist _ _).trans List.filter_sublist).map _)
  · exact hsorted.sublist (((List.take_sublist _ _).trans List.filter_sublist).map _)

theorem turn_kept (hforward : GoesForward env job.schedule job.jobId e.now start) (hparse : ∀ u, env.parseIso (toIsoUtc u) = some u)
    (hpolicy : job.misfirePolicy = .catchUp n) {text : String} (htext : job.nextDueAt = some text) (hne : strip text ≠ "")
    (hstart : env.parseIso (strip text) = some start) (hwf : CronWf db) (hjob : job ∈ db.jobs) {earlier later : List CronJobRow}
    (hrows : UniqueKey CronJobRow.jobId (earlier ++ job :: later)) {acc : CronDb × List CronRunRow} {queued : List CronRunRow}
    (hearlier : earlier.foldlM (enqueueJob env e owner leaseExpires) (db, []) = .ok acc)
    (hrest : (job :: later).foldlM (enqueueJob env e owner leaseExpires) acc = .ok (db', queued))
    (hlast : AmongLast env job e.now start (max 1 n) t) :
    HasRow db' job.jobId t ∨ Waits env db' job.jobId t ↔ KeptAtTurn env acc.1 job e.now start (max 1 n) t := by
  rw [UniqueKey, List.map_append, List.map_cons, List.nodup_append, List.nodup_cons] at hrows
  obtain ⟨-, ⟨hnotLater, -⟩, hdisjoint⟩ := hrows
  have hbefore : ∀ row ∈ earlier, row.jobId ≠ job.jobId := fun row hrow =>
    hdisjoint _ (List.mem_map_of_mem hrow) _ List.mem_cons_self
  have hafter : ∀ row ∈ later, row.jobId ≠ job.jobId := fun row hrow heq => hnotLater (heq ▸ List.mem_map_of_mem hrow)
  have hpath : CronPath db [] acc.1 := by
    refine foldlM_invariant (J := fun b => CronPath db [] b.1) ?_ (.nil db) hearlier
    intro b row _ b' hb hok
    exact hb.trans (enqueueJob_path hok)
  have hmem : job ∈ acc.1.jobs := ((foldlM_others hbefore hearlier).1 job rfl).mpr hjob
  rw [List.foldlM_cons] at hrest
  obtain ⟨next, hnext, hrest⟩ := bind_eq_ok.mp hrest
  obtain ⟨hsame, hruns⟩ := foldlM_others hafter hrest
  rw [← enqueueJob_kept hforward hparse hpolicy htext hne hstart (CronPath.wf hwf hpath).jobKey hmem hnext hlast, hruns t,
    hsame.waits t]

/-- **A tick keeps the last occurrences of a job exactly when its turn drops none without a run.** -/
theorem catchUp_iff (hwf : CronWf db) (hjob : job ∈ db.jobs) (hpolicy : job.misfirePolicy = .catchUp n)
    (hforward : GoesForward env job.schedule job.jobId e.now start) (hparse : ∀ u, env.parseIso (toIsoUtc u) = some u) {text : String}
    (htext : job.nextDueAt = some text) (hne : strip text ≠ "") (hstart : env.parseIso (strip text) = some start)
    {queued : List CronRunRow} (h : enqueueDueCronRuns env db e = .ok (db', queued)) :
    (∀ t, AmongLast env job e.now start (max 1 n) t → HasRow db' job.jobId t ∨ Waits env db' job.jobId t) ↔
      ∀ acc, AtTurn env db e job acc →
        ∀ t, AmongLast env job e.now start (max 1 n) t → KeptAtTurn env acc.1 job e.now start (max 1 n) t := by
  rw [enqueueDueCronRuns] at h
  obtain ⟨owner, howner, h⟩ := bind_eq_ok.mp h
  obtain ⟨leaseExpires, hlease, h⟩ := bind_eq_ok.mp h
  obtain ⟨⟨db₁, recovered⟩, hrecover, h⟩ := bind_eq_ok.mp h
  change enqueueRecovered env e owner (toIsoUtc leaseExpires) db₁ = _ at h
  have hrecovering := recoverExpiredCronRuns_ok hwf hrecover
  have hwf₁ : CronWf db₁ := CronPath.wf hwf hrecovering.path
  have hjob₁ : job ∈ db₁.jobs := hrecovering.jobs ▸ hjob
  have hunique := dueJobRows_unique hwf₁.jobKey env (toIsoUtc e.now) e.now (max 1 (min e.maxJobs 500)).toNat
  rw [enqueueRecovered] at h
  constructor
  · rintro hkept acc ⟨owner', leaseExpires', db₂, recovered', earlier, later, howner', hlease', hrecover', hrunning, hrows, hearlier⟩
      t hlast
    obtain rfl := Except.ok.inj (howner.symm.trans howner')
    obtain rfl := Except.ok.inj (hlease.symm.trans hlease')
    obtain ⟨rfl, -⟩ := Prod.mk.inj (Except.ok.inj (hrecover.symm.trans hrecover'))
    rw [if_neg (by simp [hrunning])] at h
    rw [hrows] at hunique
    simp only [hrows, List.foldlM_append, hearlier] at h
    exact (turn_kept hforward hparse hpolicy htext hne hstart hwf₁ hjob₁ hunique hearlier h hlast).mp (hkept t hlast)
  · intro hturn t hlast
    have hwaits : Waits env db₁ job.jobId t := by
      obtain ⟨k, hk, -⟩ := hlast
      exact ⟨job, hjob₁, rfl, text, start, htext, hstart, le_occurrence hforward hk⟩
    by_cases hpaused : db₁.paused = true
    · rw [if_pos hpaused] at h
      cases h
      exact .inr hwaits
    · rw [if_neg hpaused] at h
      by_cases hdue : job ∈ dueJobRows env db₁ (toIsoUtc e.now) e.now (max 1 (min e.maxJobs 500)).toNat
      · obtain ⟨earlier, later, hrows⟩ := List.append_of_mem hdue
        rw [hrows] at hunique
        simp only [hrows, List.foldlM_append] at h
        obtain ⟨acc, hearlier, hrest⟩ := bind_eq_ok.mp h
        have hat : AtTurn env db e job acc :=
          ⟨owner, leaseExpires, db₁, recovered, earlier, later, howner, hlease, hrecover, by simpa using hpaused, hrows, hearlier⟩
        exact (turn_kept hforward hparse hpolicy htext hne hstart hwf₁ hjob₁ hunique hearlier hrest hlast).mpr (hturn acc hat t hlast)
      · -- the job is not among the rows of this call
        have hothers : ∀ row ∈ dueJobRows env db₁ (toIsoUtc e.now) e.now (max 1 (min e.maxJobs 500)).toNat,
            row.jobId ≠ job.jobId := by
          intro row hrow heq
          obtain rfl := hwf₁.jobKey.eq_of_key_eq (mem_dueJobRows hrow) hjob₁ heq
          exact hdue hrow
        exact .inr (((foldlM_others hothers h).1.waits t).mpr hwaits)

end

def readEnv : ScheduleEnv := { plainEnv with parseIso := readIso }

def minuteJob : CronJobRow :=
  { (hourlyJob "digest" 3 none).row (some "2026-07-18T10:00:00+00:00") with
    schedule := .every 60000 0
    misfirePolicy := .catchUp 2 }

def minuteDb : CronDb := { jobs := [minuteJob] }

theorem minuteDb_wf : CronWf minuteDb := by
  refine ⟨.nil, List.nodup_singleton _, ?_, fun r hr => absurd hr List.not_mem_nil⟩
  intro j hj
  obtain rfl := List.mem_singleton.mp hj
  exact ⟨by decide, fun key hkey => nomatch hkey⟩

def lateTick : EnqueueDue where
  daemonId := "daemon"
  freshIds jobId _ := jobId
  now := clock 90

theorem minuteJob_forward (now start : DateTime) : GoesForward readEnv minuteJob.schedule minuteJob.jobId now start := by
  intro t next _ hnext
  have hmicros : next.micros = t.micros + 60000 * 1000 := computeNextDue_every.mp hnext
  change t.micros < next.micros
  omega

theorem readEnv_parses (u : DateTime) : readEnv.parseIso (toIsoUtc u) = some u := readIso_toIsoUtc u

theorem minuteJob_start : readEnv.parseIso (strip "2026-07-18T10:00:00+00:00") = some (clock 0) := by
  decide +kernel

theorem minuteJob_text : strip "2026-07-18T10:00:00+00:00" ≠ "" := by
  decide +kernel

theorem lateTick_queues : ∃ db' queued, enqueueDueCronRuns readEnv minuteDb lateTick = .ok (db', queued) ∧
    db'.runs.map CronRunRow.dueAt = [toIsoUtc (clock 0)] ∧ db'.jobs.map CronJobRow.nextDueAt = [some (toIsoUtc (clock 120))] := by
  have hqueues : (match enqueueDueCronRuns readEnv minuteDb lateTick with
      | .ok (db', _) => decide (db'.runs.map CronRunRow.dueAt = [toIsoUtc (clock 0)] ∧
          db'.jobs.map CronJobRow.nextDueAt = [some (toIsoUtc (clock 120))])
      | .error _ => false) = true := by
    decide +kernel
  cases h : enqueueDueCronRuns readEnv minuteDb lateTick with
  | error =>
    rw [h] at hqueues
    cases hqueues
  | ok result =>
    rw [h] at hqueues
    exact ⟨result.1, result.2, rfl, of_decide_eq_true hqueues⟩

theorem catchUp_minutes_iff : ∃ db' queued, enqueueDueCronRuns readEnv minuteDb lateTick = .ok (db', queued) ∧
    ((∀ t, AmongLast readEnv minuteJob lateTick.now (clock 0) (max 1 2) t →
        HasRow db' minuteJob.jobId t ∨ Waits readEnv db' minuteJob.jobId t) ↔
      ∀ acc, AtTurn readEnv minuteDb lateTick minuteJob acc → ∀ t, AmongLast readEnv minuteJob lateTick.now (clock 0) (max 1 2) t →
        KeptAtTurn readEnv acc.1 minuteJob lateTick.now (clock 0) (max 1 2) t) := by
  obtain ⟨db', queued, h, -⟩ := lateTick_queues
  exact ⟨db', queued, h, catchUp_iff minuteDb_wf List.mem_cons_self rfl (minuteJob_forward _ _) readEnv_parses rfl
    minuteJob_text minuteJob_start h⟩

/-- The occurrence at 10:01 has no run and is behind the next due time. -/
theorem minute_dropped :
    ¬ ∀ (env : ScheduleEnv) (db db' : CronDb) (e : EnqueueDue) (job : CronJobRow) (n : ℕ) (text : String) (start : DateTime)
      (queued : List CronRunRow), CronWf db → job ∈ db.jobs → job.enabled = true → job.misfirePolicy = .catchUp n →
      GoesForward env job.schedule job.jobId e.now start → (∀ u, env.parseIso (toIsoUtc u) = some u) → job.nextDueAt = some text →
      strip text ≠ "" → env.parseIso (strip text) = some start → enqueueDueCronRuns env db e = .ok (db', queued) →
      ∀ t, AmongLast env job e.now start (max 1 n) t → HasRow db' job.jobId t ∨ Waits env db' job.jobId t := by
  intro hall
  obtain ⟨db', queued, h, hruns, hjobs⟩ := lateTick_queues
  have hlast : AmongLast readEnv minuteJob (clock 90) (clock 0) (max 1 2) (clock 60) := by
    refine ⟨1, by decide +kernel, by decide, by decide, fun t' ht' => ?_⟩
    have hthird : jobOccurrence readEnv minuteJob (clock 0) (1 + max 1 2) = some (clock 180) := by decide +kernel
    cases hthird.symm.trans ht'
    decide
  rcases hall readEnv minuteDb db' lateTick minuteJob 2 "2026-07-18T10:00:00+00:00" (clock 0) queued minuteDb_wf List.mem_cons_self rfl
    rfl (minuteJob_forward _ _) readEnv_parses rfl minuteJob_text minuteJob_start h (clock 60) hlast with
    ⟨r, hr, -, hdue⟩ | ⟨j, hj, -, written, due, hwritten, hread, hle⟩
  · have hmem : r.dueAt ∈ db'.runs.map CronRunRow.dueAt := List.mem_map_of_mem hr
    rw [hruns, hdue, List.mem_singleton] at hmem
    exact absurd (toIsoUtc_injective hmem) (by decide)
  · have hmem : j.nextDueAt ∈ db'.jobs.map CronJobRow.nextDueAt := List.mem_map_of_mem hj
    rw [hjobs, List.mem_singleton, hwritten, Option.some.injEq] at hmem
    rw [hmem, strip_toIsoUtc, readEnv_parses] at hread
    cases hread
    exact absurd hle (by decide)

end OpenMinion.CatchUpRuns
