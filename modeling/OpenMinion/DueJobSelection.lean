import OpenMinion.CronOperations
import OpenMinion.ListPositions

/-!
# Due jobs by their texts

The first query for the due jobs compares the stored texts with the text of the tick. The jobs
are read as instants only when it finds nothing.
-/
namespace OpenMinion.DueJobSelection
open CronOperations CronSchedules CronStore CronTables IsoTimestamps ListPositions SessionTables

section
variable (env : ScheduleEnv) (db : CronDb) (now : DateTime) (limit : ℕ)

def enabledJobs : List CronJobRow := db.jobs.filter fun j => j.enabled && j.nextDueAt.isSome

def isDue (j : CronJobRow) : Bool := (env.parseIso (j.nextDueAt.getD "")).any (· ≤ now)

def isDueByText (j : CronJobRow) : Bool := j.nextDueAt.getD "" ≤ toIsoUtc now

def dueJobs : List CronJobRow := (enabledJobs db).filter (isDue env now)

def dueByText : List CronJobRow :=
  ((enabledJobs db).insertionSort fun a b => a.nextDueAt.getD "" ≤ b.nextDueAt.getD "").filter (isDueByText now)

/-- The selection has due jobs only, and all of them up to its limit. -/
def SelectsDue : Prop :=
  (dueJobRows env db (toIsoUtc now) now limit).Subperm (dueJobs env db now) ∧
    (dueJobRows env db (toIsoUtc now) now limit).length = min limit (dueJobs env db now).length

/-- Enough earlier texts keep every job that is not due out of the first query, and enough up to that of the tick
excuse every due job that it misses; or it sees no job. -/
def TextsAgree : Prop :=
  (∀ j ∈ enabledJobs db, isDueByText now j = false) ∨
    (∀ j ∈ enabledJobs db, isDueByText now j = true → isDue env now j = false →
      limit ≤ (enabledJobs db).countP fun k => k.nextDueAt.getD "" < j.nextDueAt.getD "") ∧
    ∀ j ∈ enabledJobs db, isDue env now j = true → isDueByText now j = false →
      limit ≤ (enabledJobs db).countP (isDueByText now)

end

variable {env : ScheduleEnv} {db : CronDb} {now : DateTime} {limit : ℕ}

theorem dueJobRows_eq : dueJobRows env db (toIsoUtc now) now limit =
    if ((dueByText db now).take limit).isEmpty then
      (((enabledJobs db).insertionSort fun a b => a.nextDueAt.getD "" ≤ b.nextDueAt.getD "").filter (isDue env now)).take limit
    else (dueByText db now).take limit := rfl

theorem dueByText_subperm : (dueByText db now).Subperm (enabledJobs db) :=
  List.filter_sublist.subperm.trans (List.perm_insertionSort _ _).subperm

theorem subperm_dueJobs {chosen : List CronJobRow} (hchosen : chosen.Subperm (enabledJobs db))
    (hdue : ∀ j ∈ chosen, isDue env now j = true) : chosen.Subperm (dueJobs env db now) := by
  have hfilter := hchosen.filter (isDue env now)
  rwa [List.filter_eq_self.mpr hdue] at hfilter

theorem selectsDue_of_empty (h : ((dueByText db now).take limit).isEmpty = true) : SelectsDue env db now limit := by
  have hperm : (((enabledJobs db).insertionSort fun a b => a.nextDueAt.getD "" ≤ b.nextDueAt.getD "").filter
      (isDue env now)).Perm (dueJobs env db now) := (List.perm_insertionSort _ _).filter _
  rw [SelectsDue, dueJobRows_eq, if_pos h]
  exact ⟨(List.take_sublist _ _).subperm.trans hperm.subperm, by rw [List.length_take, hperm.length_eq]⟩

theorem length_dueByText : (dueByText db now).length = (enabledJobs db).countP (isDueByText now) := by
  rw [dueByText, ← List.countP_eq_length_filter, (List.perm_insertionSort _ (enabledJobs db)).countP_eq]

theorem mem_dueByText {j : CronJobRow} : j ∈ dueByText db now ↔ j ∈ enabledJobs db ∧ isDueByText now j = true := by
  rw [dueByText, List.mem_filter, List.mem_insertionSort]

theorem isDue_congr {j k : CronJobRow} (h : j.nextDueAt.getD "" = k.nextDueAt.getD "") : isDue env now j = isDue env now k := by
  rw [isDue, h, isDue]

theorem countP_dueByText {j : CronJobRow} (hj : isDueByText now j = true) :
    (dueByText db now).countP (fun k => k.nextDueAt.getD "" < j.nextDueAt.getD "") =
      (enabledJobs db).countP fun k => k.nextDueAt.getD "" < j.nextDueAt.getD "" := by
  rw [dueByText, List.countP_filter, (List.perm_insertionSort _ (enabledJobs db)).countP_eq]
  refine List.countP_congr fun k _ => ?_
  simp only [Bool.and_eq_true, decide_eq_true_eq, isDueByText, and_iff_left_iff_imp]
  exact fun hlt => hlt.le.trans (of_decide_eq_true hj)

/-- The first jobs by their texts are due. -/
theorem firstDue_iff : (∀ j ∈ (dueByText db now).take limit, isDue env now j = true) ↔
    ∀ j ∈ enabledJobs db, isDueByText now j = true → isDue env now j = false →
      limit ≤ (enabledJobs db).countP fun k => k.nextDueAt.getD "" < j.nextDueAt.getD "" := by
  have hsorted : (dueByText db now).Pairwise fun a b => a.nextDueAt.getD "" ≤ b.nextDueAt.getD "" := by
    have htotal : Std.Total fun a b : CronJobRow => a.nextDueAt.getD "" ≤ b.nextDueAt.getD "" := ⟨fun _ _ => le_total _ _⟩
    have htrans : IsTrans CronJobRow fun a b => a.nextDueAt.getD "" ≤ b.nextDueAt.getD "" := ⟨fun _ _ _ => le_trans⟩
    exact (List.pairwise_insertionSort _ _).filter _
  rw [forall_take_iff_countP (fun _ _ h => by rw [isDue_congr h]) hsorted]
  constructor
  · intro h j hj htext hdue
    rw [← countP_dueByText htext]
    exact h j (mem_dueByText.mpr ⟨hj, htext⟩) (Bool.eq_false_iff.mp hdue)
  · intro h j hj hdue
    obtain ⟨hj, htext⟩ := mem_dueByText.mp hj
    rw [countP_dueByText htext]
    exact h j hj htext (Bool.eq_false_iff.mpr hdue)

/-- **The selection is right exactly when the texts agree with the instants.** -/
theorem selectsDue_iff (env : ScheduleEnv) (db : CronDb) (now : DateTime) (limit : ℕ) :
    SelectsDue env db now limit ↔ TextsAgree env db now limit := by
  by_cases hempty : ((dueByText db now).take limit).isEmpty = true
  · refine iff_of_true (selectsDue_of_empty hempty) ?_
    rcases List.take_eq_nil_iff.mp (List.isEmpty_iff.mp hempty) with rfl | hnil
    · exact .inr ⟨fun _ _ _ _ => Nat.zero_le _, fun _ _ _ _ => Nat.zero_le _⟩
    · refine .inl fun j hj => Bool.eq_false_iff.mpr fun htext => ?_
      have hmem := mem_dueByText.mpr ⟨hj, htext⟩
      rw [hnil] at hmem
      cases hmem
  · have hsome : ¬ ∀ j ∈ enabledJobs db, isDueByText now j = false := by
      intro hnone
      refine hempty (List.isEmpty_iff.mpr (List.take_eq_nil_iff.mpr (.inr (List.eq_nil_iff_forall_not_mem.mpr fun j hj => ?_))))
      obtain ⟨hj, htext⟩ := mem_dueByText.mp hj
      rw [hnone j hj] at htext
      cases htext
    have htaken : ((dueByText db now).take limit).Subperm (enabledJobs db) :=
      (List.take_sublist _ _).subperm.trans dueByText_subperm
    rw [SelectsDue, TextsAgree, dueJobRows_eq, if_neg hempty, or_iff_right hsome, ← firstDue_iff, ← length_dueByText]
    constructor
    · rintro ⟨hsubperm, hlength⟩
      have hdue : ∀ j ∈ (dueByText db now).take limit, isDue env now j = true := fun j hj =>
        (List.mem_filter.mp (hsubperm.subset hj)).2
      refine ⟨hdue, fun j hj hjdue hlate => ?_⟩
      by_contra hfew
      -- as many jobs are due as the first query finds
      rw [List.take_of_length_le (not_le.mp hfew).le] at hsubperm hlength
      have hperm := hsubperm.perm_of_length_le (by omega)
      have htext := (mem_dueByText.mp (hperm.mem_iff.mpr (List.mem_filter.mpr ⟨hj, hjdue⟩))).2
      rw [hlate] at htext
      cases htext
    · rintro ⟨hdue, hlate⟩
      have hsubperm := subperm_dueJobs htaken hdue
      refine ⟨hsubperm, ?_⟩
      have hle := hsubperm.length_le
      rw [List.length_take] at hle ⊢
      by_cases hfew : (dueByText db now).length < limit
      · have hall : ∀ j ∈ dueJobs env db now, isDueByText now j = true := by
          intro j hj
          obtain ⟨hj, hjdue⟩ := List.mem_filter.mp hj
          by_contra hnot
          have hmany := hlate j hj hjdue (Bool.eq_false_iff.mpr hnot)
          omega
        have hback : (dueJobs env db now).length ≤ (dueByText db now).length := by
          have hself : (dueJobs env db now).filter (isDueByText now) = dueJobs env db now := List.filter_eq_self.mpr hall
          have hsublist : ((dueJobs env db now).filter (isDueByText now)).Sublist ((enabledJobs db).filter (isDueByText now)) :=
            List.filter_sublist.filter _
          rw [hself] at hsublist
          exact hsublist.length_le.trans_eq (List.countP_eq_length_filter.symm.trans length_dueByText.symm)
        omega
      · omega

/-- Texts that are all canonical agree with the instants. -/
theorem textsAgree_of_canonical (h : ∀ j ∈ enabledJobs db, ∃ t, j.nextDueAt.getD "" = toIsoUtc t ∧ env.parseIso (toIsoUtc t) = some t)
    (limit : ℕ) : TextsAgree env db now limit := by
  have hsame : ∀ j ∈ enabledJobs db, isDue env now j = isDueByText now j := by
    intro j hj
    obtain ⟨t, htext, hparse⟩ := h j hj
    rw [isDue, isDueByText, htext, hparse, Option.any_some, decide_eq_decide, toIsoUtc_le_iff]
  refine .inr ⟨fun j hj htext hdue => ?_, fun j hj hdue htext => ?_⟩
  · rw [hsame j hj, htext] at hdue
    cases hdue
  · rw [hsame j hj, htext] at hdue
    cases hdue

def offsetEnv : ScheduleEnv :=
  { plainEnv with
    parseIso := fun text =>
      if text = "2026-07-18T10:00:00+00:00" then some (clock 0)
      else if text = "2026-07-18T14:10:00+04:00" then some (clock 600)
      else none }

def offsetDb : CronDb where
  jobs := [(hourlyJob "a" 3 none).row (some "2026-07-18T10:00:00+00:00"),
    (hourlyJob "b" 3 none).row (some "2026-07-18T14:10:00+04:00")]

/-- At 10:30 the job of 14:10+04:00 is due, but its text is later. -/
theorem offset_job_not_selected :
    ¬ ∀ (env : ScheduleEnv) (db : CronDb) (now : DateTime) (limit : ℕ), SelectsDue env db now limit := by
  intro h
  have hlength := (h offsetEnv offsetDb (clock 1800) 10).2
  revert hlength
  decide +kernel

end OpenMinion.DueJobSelection
