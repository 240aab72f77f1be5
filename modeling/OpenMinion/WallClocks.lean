import Mathlib.Algebra.Order.Ring.Int
import Mathlib.Order.Bounds.Basic

/-!
# Wall clocks of time zones

A zone maps instants to wall-clock times by an offset that changes at its transitions. A wall-clock time is read at the
offset before a transition, as the earlier of two, and behind the gap when the clock skips it.
-/
namespace OpenMinion.WallClocks

/-- The offset before all transitions, and the transitions in their order with the offset after each. -/
structure Zone where
  initial : ℤ
  transitions : List (ℤ × ℤ)
  ordered : transitions.Pairwise fun a b => a.1 < b.1
  deriving DecidableEq

def offsetAt (current : ℤ) : List (ℤ × ℤ) → ℤ → ℤ
  | [], _ => current
  | (instant, offset) :: transitions, u => if u < instant then current else offsetAt offset transitions u

def offsetOfWall (current : ℤ) : List (ℤ × ℤ) → ℤ → ℤ
  | [], _ => current
  | (instant, offset) :: transitions, w =>
    if w < instant + max current offset then current else offsetOfWall offset transitions w

namespace Zone

variable (z : Zone)

def wall (u : ℤ) : ℤ := u + offsetAt z.initial z.transitions u

def instant (w : ℤ) : ℤ := w - offsetOfWall z.initial z.transitions w

def Fixed : Prop := z.transitions = []

variable {z}

theorem Fixed.wall_eq (h : z.Fixed) (u : ℤ) : z.wall u = u + z.initial := by
  rw [wall, h, offsetAt]

theorem Fixed.instant_eq (h : z.Fixed) (w : ℤ) : z.instant w = w - z.initial := by
  rw [instant, h, offsetOfWall]

end Zone

section
variable (M : ℤ → Prop) (cursor w ending : ℤ)

/-- The instants from `since` on at which a clock with these turns shows a time of `M`. -/
def shownAt (current : ℤ) (transitions : List (ℤ × ℤ)) (since : ℤ) : Set ℤ :=
  {u | since ≤ u ∧ u < ending ∧ M (u + offsetAt current transitions u)}

/-- With one offset, `u` is the first such instant. -/
def FirstWith (offset since u : ℤ) : Prop :=
  since ≤ u ∧ u < ending ∧ M (u + offset) ∧ ∀ v, since ≤ v → v < u → ¬ M (v + offset)

/-- Turn by turn, `u` is the first such instant. -/
def FirstShown (u : ℤ) : ℤ → List (ℤ × ℤ) → ℤ → Prop
  | current, [], since => FirstWith M ending current since u
  | current, (turn, offset) :: transitions, since =>
    if u < turn then FirstWith M ending current since u
    else (∀ v, since ≤ v → v < turn → ¬ M (v + current)) ∧ FirstShown u offset transitions (max since turn)

/-- Between two instants, a clock with one offset shows no time of `M` from before the cursor. -/
def Unrepeated (offset since stop : ℤ) : Prop :=
  ∀ u, since ≤ u → u < stop → u + offset < cursor → ¬ M (u + offset)

/-- The clock shows `w` with this offset, and shows no time from before the cursor again until then. -/
def ShownNext (offset since : ℤ) : Prop :=
  since + offset ≤ w ∧ w - offset < ending ∧ Unrepeated M cursor offset since (w - offset)

/-- From turn to turn, the clock shows no time from before the cursor again until it shows `w`; where a turn skips
`w`, the first time behind it comes as long after the turn as `w` lies in the gap. -/
def Undisturbed : ℤ → List (ℤ × ℤ) → ℤ → Prop
  | current, [], since => ShownNext M cursor w ending current since
  | current, (turn, offset) :: transitions, since =>
    if w < turn + current then ShownNext M cursor w ending current since
    else Unrepeated M cursor current since turn ∧
      if w < turn + offset then FirstShown M ending (turn + (w - (turn + current))) offset transitions (max since turn)
      else Undisturbed offset transitions (max since turn)

/-- In no stretch between two turns does the clock show a time from before the cursor. -/
def NeverRepeated : ℤ → List (ℤ × ℤ) → ℤ → Prop
  | current, [], since => Unrepeated M cursor current since ending
  | current, (turn, offset) :: transitions, since =>
    Unrepeated M cursor current since (min turn ending) ∧ NeverRepeated offset transitions (max since turn)

end

section
variable {M : ℤ → Prop} {cursor w ending : ℤ}

theorem isLeast_shownAt_nil {current since u : ℤ} :
    IsLeast (shownAt M ending current [] since) u ↔ FirstWith M ending current since u := by
  constructor
  · rintro ⟨⟨hsince, hending, hshown⟩, hleast⟩
    refine ⟨hsince, hending, hshown, fun v hv hlt hM => ?_⟩
    exact absurd (hleast ⟨hv, hlt.trans hending, hM⟩) (not_le.mpr hlt)
  · rintro ⟨hsince, hending, hshown, hfirst⟩
    refine ⟨⟨hsince, hending, hshown⟩, ?_⟩
    rintro v ⟨hv, -, hM⟩
    exact not_lt.mp fun hlt => hfirst v hv hlt hM

theorem mem_shownAt_cons {current turn offset since u : ℤ} {transitions : List (ℤ × ℤ)} :
    u ∈ shownAt M ending current ((turn, offset) :: transitions) since ↔
      u < turn ∧ since ≤ u ∧ u < ending ∧ M (u + current) ∨ u ∈ shownAt M ending offset transitions (max since turn) := by
  simp only [shownAt, Set.mem_ofPred_eq, offsetAt, max_le_iff]
  by_cases hu : u < turn
  · simp [hu, not_le.mpr hu]
  · simp [hu, not_lt.mp hu]

theorem isLeast_shownAt_cons_of_lt {current turn offset since u : ℤ} {transitions : List (ℤ × ℤ)} (hu : u < turn) :
    IsLeast (shownAt M ending current ((turn, offset) :: transitions) since) u ↔ FirstWith M ending current since u := by
  constructor
  · rintro ⟨hmem, hleast⟩
    rcases mem_shownAt_cons.mp hmem with ⟨-, hsince, hending, hshown⟩ | ⟨hle, -⟩
    · refine ⟨hsince, hending, hshown, fun v hv hlt hM => ?_⟩
      exact absurd (hleast (mem_shownAt_cons.mpr (.inl ⟨hlt.trans hu, hv, hlt.trans hending, hM⟩))) (not_le.mpr hlt)
    · exact absurd ((le_max_right _ _).trans hle) (not_le.mpr hu)
  · rintro ⟨hsince, hending, hshown, hfirst⟩
    refine ⟨mem_shownAt_cons.mpr (.inl ⟨hu, hsince, hending, hshown⟩), fun v hv => ?_⟩
    rcases mem_shownAt_cons.mp hv with ⟨-, hsince', -, hM⟩ | ⟨hle, -⟩
    · exact not_lt.mp fun hlt => hfirst v hsince' hlt hM
    · exact hu.le.trans ((le_max_right _ _).trans hle)

theorem isLeast_shownAt_cons_of_le {current turn offset since u : ℤ} {transitions : List (ℤ × ℤ)} (hu : turn ≤ u) :
    IsLeast (shownAt M ending current ((turn, offset) :: transitions) since) u ↔
      (∀ v, since ≤ v → v < turn → ¬ M (v + current)) ∧ IsLeast (shownAt M ending offset transitions (max since turn)) u := by
  constructor
  · rintro ⟨hmem, hleast⟩
    rcases mem_shownAt_cons.mp hmem with ⟨hlt, -⟩ | hmem
    · exact absurd hu (not_le.mpr hlt)
    · refine ⟨fun v hv hlt hM => ?_, hmem, fun v hv => hleast (mem_shownAt_cons.mpr (.inr hv))⟩
      have hbefore := hlt.trans_le hu
      exact absurd (hleast (mem_shownAt_cons.mpr (.inl ⟨hlt, hv, hbefore.trans hmem.2.1, hM⟩))) (not_le.mpr hbefore)
  · rintro ⟨hnone, hmem, hleast⟩
    refine ⟨mem_shownAt_cons.mpr (.inr hmem), fun v hv => ?_⟩
    rcases mem_shownAt_cons.mp hv with ⟨hlt, hsince, -, hM⟩ | hv
    · exact absurd hM (hnone v hsince hlt)
    · exact hleast hv

theorem firstShown_iff {u : ℤ} (current : ℤ) (transitions : List (ℤ × ℤ)) (since : ℤ) :
    FirstShown M ending u current transitions since ↔ IsLeast (shownAt M ending current transitions since) u := by
  induction transitions generalizing current since with
  | nil => exact isLeast_shownAt_nil.symm
  | cons transition transitions ih =>
    obtain ⟨turn, offset⟩ := transition
    rw [FirstShown]
    split
    · next hu => exact (isLeast_shownAt_cons_of_lt hu).symm
    · next hu => rw [isLeast_shownAt_cons_of_le (not_lt.mp hu), ih]

section
variable (hw : M w) (hfirst : ∀ m, cursor ≤ m → m < w → ¬ M m)
include hw hfirst

theorem shownNext_iff {offset since : ℤ} : ShownNext M cursor w ending offset since ↔ FirstWith M ending offset since (w - offset) := by
  rw [ShownNext, FirstWith, sub_add_cancel, le_sub_iff_add_le]
  refine and_congr_right fun _ => and_congr_right fun _ => ?_
  rw [and_iff_right hw]
  refine forall₃_congr fun u _ hlt => ⟨fun h hM => ?_, fun h _ => h⟩
  by_cases hbefore : u + offset < cursor
  · exact h hbefore hM
  · exact hfirst _ (not_lt.mp hbefore) (by omega) hM

omit hw hfirst in
theorem le_sub_offsetOfWall {turn current : ℤ} {transitions : List (ℤ × ℤ)} (hordered : transitions.Pairwise fun a b => a.1 < b.1)
    (hturns : ∀ t ∈ transitions, turn < t.1) (hw : turn + current ≤ w) : turn ≤ w - offsetOfWall current transitions w := by
  induction transitions generalizing turn current with
  | nil => exact le_sub_iff_add_le.mpr hw
  | cons transition transitions ih =>
    obtain ⟨hnext, hordered⟩ := List.pairwise_cons.mp hordered
    rw [offsetOfWall]
    split
    · exact le_sub_iff_add_le.mpr hw
    · next hread =>
      have hbehind : transition.1 ≤ w - offsetOfWall transition.2 transitions w := ih hordered hnext (by omega)
      exact (hturns transition List.mem_cons_self).le.trans hbehind

/-- Read with the offset before a turn, the first match behind the cursor is the first time shown exactly
when no turn disturbs it. -/
theorem undisturbed_iff (current : ℤ) {transitions : List (ℤ × ℤ)} (hordered : transitions.Pairwise fun a b => a.1 < b.1)
    (since : ℤ) :
    Undisturbed M cursor w ending current transitions since ↔
      IsLeast (shownAt M ending current transitions since) (w - offsetOfWall current transitions w) := by
  induction transitions generalizing current since with
  | nil => exact (shownNext_iff hw hfirst).trans isLeast_shownAt_nil.symm
  | cons transition transitions ih =>
    obtain ⟨turn, offset⟩ := transition
    obtain ⟨hnext, hordered⟩ := List.pairwise_cons.mp hordered
    rw [Undisturbed, offsetOfWall]
    by_cases hshown : w < turn + current
    · have hread : w < turn + max current offset := by omega
      rw [if_pos hshown, if_pos hread, isLeast_shownAt_cons_of_lt (by omega)]
      exact shownNext_iff hw hfirst
    · have hrepeated : Unrepeated M cursor current since turn ↔ ∀ v, since ≤ v → v < turn → ¬ M (v + current) := by
        refine forall₃_congr fun v _ hlt => ⟨fun h hM => ?_, fun h _ => h⟩
        by_cases hbefore : v + current < cursor
        · exact h hbefore hM
        · exact hfirst _ (not_lt.mp hbefore) (by omega) hM
      rw [if_neg hshown, hrepeated]
      by_cases hskipped : w < turn + offset
      · have hread : w < turn + max current offset := by omega
        have hbehind : turn + (w - (turn + current)) = w - current := by omega
        rw [if_pos hskipped, if_pos hread, isLeast_shownAt_cons_of_le (by omega), hbehind, firstShown_iff]
      · have hread : ¬ w < turn + max current offset := by omega
        have hbehind : turn ≤ w - offsetOfWall offset transitions w := le_sub_offsetOfWall hordered hnext (not_lt.mp hskipped)
        rw [if_neg hskipped, if_neg hread, ih offset hordered, isLeast_shownAt_cons_of_le hbehind]

end

theorem neverRepeated_iff (hnone : ∀ m, cursor ≤ m → ¬ M m) (current : ℤ) (transitions : List (ℤ × ℤ)) (since : ℤ) :
    NeverRepeated M cursor ending current transitions since ↔ ∀ u, u ∉ shownAt M ending current transitions since := by
  have hunrepeated : ∀ offset since stop : ℤ,
      Unrepeated M cursor offset since stop ↔ ∀ u, since ≤ u → u < stop → ¬ M (u + offset) := by
    intro offset since stop
    refine forall₃_congr fun u _ _ => ⟨fun h hM => ?_, fun h _ => h⟩
    by_cases hbefore : u + offset < cursor
    · exact h hbefore hM
    · exact hnone _ (not_lt.mp hbefore) hM
  induction transitions generalizing current since with
  | nil =>
    rw [NeverRepeated, hunrepeated]
    simp [shownAt, offsetAt]
  | cons transition transitions ih =>
    obtain ⟨turn, offset⟩ := transition
    rw [NeverRepeated, hunrepeated]
    refine (and_congr_right fun _ => ih offset (max since turn)).trans ?_
    rw [← forall_and]
    refine forall_congr' fun u => ?_
    rw [mem_shownAt_cons, not_or, lt_min_iff]
    refine and_congr_left fun _ => ?_
    tauto

end

end OpenMinion.WallClocks
