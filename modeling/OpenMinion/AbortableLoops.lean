import Mathlib.Data.List.Basic

/-!
# Loops that stop at an error

A loop over items whose body may raise. Nothing is rolled back: the state keeps what was done
until then. What an item does is classified on the part of the state that the loop is judged by.
-/
namespace OpenMinion.AbortableLoops

universe u v w x
variable {State : Type u} {Item : Type v} {Error : Type w} {View : Type x}

def runUntil (step : State → Item → State × Option Error) : State → List Item → State × Option Error
  | s, [] => (s, none)
  | s, item :: items =>
    match step s item with
    | (t, some e) => (t, some e)
    | (t, none) => runUntil step t items

variable {step : State → Item → State × Option Error} {s : State} {item : Item} {items : List Item}

@[simp] theorem runUntil_nil : runUntil step s [] = (s, none) := rfl

theorem runUntil_cons_of_none (h : (step s item).2 = none) :
    runUntil step s (item :: items) = runUntil step (step s item).1 items := by
  rw [runUntil]
  split
  · next t e heq =>
    rw [heq] at h
    cases h
  · next t heq => rw [heq]

theorem runUntil_cons_of_ne_none (h : (step s item).2 ≠ none) : runUntil step s (item :: items) = step s item := by
  rw [runUntil]
  split
  · next t e heq => rw [heq]
  · next t heq =>
    rw [heq] at h
    exact absurd rfl h

theorem runUntil_cons_none (h : (runUntil step s (item :: items)).2 = none) :
    (step s item).2 = none ∧ (runUntil step (step s item).1 items).2 = none := by
  by_cases hstep : (step s item).2 = none
  · exact ⟨hstep, by rwa [runUntil_cons_of_none hstep] at h⟩
  · rw [runUntil_cons_of_ne_none hstep] at h
    exact absurd h hstep

theorem runUntil_invariant {I : State → Prop} (hstep : ∀ s item, I s → I (step s item).1) (hs : I s) (items : List Item) :
    I (runUntil step s items).1 := by
  induction items generalizing s with
  | nil => exact hs
  | cons item items ih =>
    by_cases h : (step s item).2 = none
    · rw [runUntil_cons_of_none h]
      exact ih (hstep s item hs)
    · rw [runUntil_cons_of_ne_none h]
      exact hstep s item hs

theorem runUntil_map {Source : Type x} (f : Source → Item) (s : State) (sources : List Source) :
    runUntil step s (sources.map f) = runUntil (fun t source => step t (f source)) s sources := by
  induction sources generalizing s with
  | nil => rfl
  | cons source sources ih =>
    rw [List.map_cons, runUntil, runUntil]
    split
    · rfl
    · exact ih _

theorem view_runUntil (view : State → View) (hview : ∀ s item, view (step s item).1 = view s) (s : State) (items : List Item) :
    view (runUntil step s items).1 = view s :=
  runUntil_invariant (I := fun t => view t = view s) (fun t item ht => (hview t item).trans ht) rfl items

theorem runUntil_eq_none_iff (view : State → View) (Accepted : View → Item → Prop)
    (hview : ∀ s item, view (step s item).1 = view s) (hstep : ∀ s item, (step s item).2 = none ↔ Accepted (view s) item)
    (s : State) (items : List Item) : (runUntil step s items).2 = none ↔ ∀ item ∈ items, Accepted (view s) item := by
  induction items generalizing s with
  | nil => simp
  | cons item items ih =>
    rw [List.forall_mem_cons, ← hstep s item]
    by_cases h : (step s item).2 = none
    · rw [runUntil_cons_of_none h, ih, hview]
      exact ⟨fun hrest => ⟨h, hrest⟩, And.right⟩
    · rw [runUntil_cons_of_ne_none h]
      exact ⟨fun hnone => absurd hnone h, fun hboth => absurd hboth.1 h⟩

inductive Kind where
  | quiet
  | fails
  | writes
  deriving DecidableEq

def firstLoud (kind : Item → Kind) (items : List Item) : Option Kind := (items.map kind).find? fun k => k ≠ .quiet

theorem firstLoud_ne_quiet (kind : Item → Kind) (items : List Item) : firstLoud kind items ≠ some .quiet := by
  intro h
  simpa using List.find?_some h

/-- The kinds of the items, as the view shows them: a write changes the view, and no item undoes it. -/
structure Classified (step : State → Item → State × Option Error) (view : State → View) (kind : View → Item → Kind)
    (Changed : View → View → Prop) : Prop where
  quiet : ∀ s item, kind (view s) item = .quiet → (step s item).2 = none ∧ view (step s item).1 = view s
  fails : ∀ s item, kind (view s) item = .fails → (step s item).2 ≠ none ∧ view (step s item).1 = view s
  writes : ∀ s item, kind (view s) item = .writes → Changed (view s) (view (step s item).1)
  keeps : ∀ v s item, Changed v (view s) → Changed v (view (step s item).1)

namespace Classified

variable {view : State → View} {kind : View → Item → Kind} {Changed : View → View → Prop}

theorem of_firstLoud_eq_none (c : Classified step view kind Changed) (h : firstLoud (kind (view s)) items = none) :
    (runUntil step s items).2 = none ∧ view (runUntil step s items).1 = view s := by
  induction items generalizing s with
  | nil => exact ⟨rfl, rfl⟩
  | cons item items ih =>
    have hquiet : kind (view s) item = .quiet := by
      by_contra hloud
      simp [firstLoud, hloud] at h
    obtain ⟨hnone, hview⟩ := c.quiet s item hquiet
    have hrest : firstLoud (kind (view (step s item).1)) items = none := by
      rw [hview]
      simpa [firstLoud, hquiet] using h
    rw [runUntil_cons_of_none hnone, ← hview]
    exact ih hrest

theorem of_firstLoud_eq_fails (c : Classified step view kind Changed) (h : firstLoud (kind (view s)) items = some .fails) :
    (runUntil step s items).2 ≠ none ∧ view (runUntil step s items).1 = view s := by
  induction items generalizing s with
  | nil => simp [firstLoud] at h
  | cons item items ih =>
    cases hkind : kind (view s) item with
    | quiet =>
      obtain ⟨hnone, hview⟩ := c.quiet s item hkind
      have hrest : firstLoud (kind (view (step s item).1)) items = some .fails := by
        rw [hview]
        simpa [firstLoud, hkind] using h
      rw [runUntil_cons_of_none hnone, ← hview]
      exact ih hrest
    | fails =>
      obtain ⟨herror, hview⟩ := c.fails s item hkind
      rw [runUntil_cons_of_ne_none herror]
      exact ⟨herror, hview⟩
    | writes => simp [firstLoud, hkind] at h

theorem of_firstLoud_eq_writes (c : Classified step view kind Changed) (h : firstLoud (kind (view s)) items = some .writes) :
    Changed (view s) (view (runUntil step s items).1) := by
  induction items generalizing s with
  | nil => simp [firstLoud] at h
  | cons item items ih =>
    cases hkind : kind (view s) item with
    | quiet =>
      obtain ⟨hnone, hview⟩ := c.quiet s item hkind
      have hrest : firstLoud (kind (view (step s item).1)) items = some .writes := by
        rw [hview]
        simpa [firstLoud, hkind] using h
      rw [runUntil_cons_of_none hnone, ← hview]
      exact ih hrest
    | fails => simp [firstLoud, hkind] at h
    | writes =>
      have hchanged := c.writes s item hkind
      by_cases hnone : (step s item).2 = none
      · rw [runUntil_cons_of_none hnone]
        exact runUntil_invariant (I := fun t => Changed (view s) (view t)) (c.keeps (view s)) hchanged items
      · rw [runUntil_cons_of_ne_none hnone]
        exact hchanged

end Classified
theorem bind_ok_iff {E A B : Type} {x : Except E A} {f : A → Except E B} {b : B} :
    (x >>= f) = .ok b ↔ ∃ a, x = .ok a ∧ f a = .ok b := by
  cases x with
  | error e => simp [bind, Except.bind]
  | ok a => simp [bind, Except.bind]

theorem mem_mapM_ok {E A B : Type} {f : A → Except E B} {items : List A} {results : List B} (h : items.mapM f = .ok results) :
    ∀ b ∈ results, ∃ a ∈ items, f a = .ok b := by
  induction items generalizing results with
  | nil =>
    cases h
    exact fun b hb => nomatch hb
  | cons a items ih =>
    rw [List.mapM_cons] at h
    obtain ⟨first, hfirst, h⟩ := bind_ok_iff.mp h
    obtain ⟨others, hothers, h⟩ := bind_ok_iff.mp h
    cases h
    intro b hb
    rcases List.mem_cons.mp hb with rfl | hb
    · exact ⟨a, List.mem_cons_self, hfirst⟩
    · obtain ⟨item, hitem, hresult⟩ := ih hothers b hb
      exact ⟨item, List.mem_cons_of_mem a hitem, hresult⟩

end OpenMinion.AbortableLoops
