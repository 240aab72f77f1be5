import Mathlib.Data.Finset.Card
import Mathlib.Data.Finset.SDiff
import Mathlib.Logic.Relation
import Mathlib.Tactic.Basic

/-!
# Depth-first search for a cycle

The search of a list of roots, with marks for the nodes on the stack and those that were left, fails exactly when a
node lies on a cycle. As much fuel as there are nodes is enough.
-/
namespace OpenMinion.DepthFirstSearch
open Relation

inductive Stop where
  | cycle
  | depth
  deriving DecidableEq

structure Marks (α : Type*) where
  visiting : Finset α
  visited : Finset α

section
variable {α : Type*} (next : α → List α)

/-- There is an edge from the first node to the second. -/
def Edge (a b : α) : Prop := b ∈ next a

def OffCycle (a : α) : Prop := ¬ TransGen (Edge next) a a

variable [DecidableEq α]

def visit : ℕ → Marks α → α → Except Stop (Marks α)
  | 0, _, _ => .error .depth
  | fuel + 1, m, node =>
    if node ∈ m.visited then .ok m
    else if node ∈ m.visiting then .error .cycle
    else do
      let m ← (next node).foldlM (visit fuel) { m with visiting := insert node m.visiting }
      .ok { visiting := m.visiting.erase node, visited := insert node m.visited }

def visitAll (fuel : ℕ) (roots : List α) : Except Stop (Marks α) := roots.foldlM (visit next fuel) ⟨∅, ∅⟩

end

variable {α : Type*} {next : α → List α}

/-- The nodes that were left lie on no cycle, and so do their successors, which were left before them. -/
structure Settled (next : α → List α) (m : Marks α) : Prop where
  closed : ∀ a ∈ m.visited, ∀ b ∈ next a, b ∈ m.visited
  offCycle : ∀ a ∈ m.visited, OffCycle next a
  disjoint : ∀ a ∈ m.visited, a ∉ m.visiting

def Leads (next : α → List α) (m : Marks α) (node : α) : Prop := ∀ a ∈ m.visiting, TransGen (Edge next) a node

/-- The second marks are those after a search that began with the first. -/
structure Extends (m m' : Marks α) : Prop where
  visiting : m'.visiting = m.visiting
  visited : m.visited ⊆ m'.visited

theorem Extends.refl (m : Marks α) : Extends m m := ⟨rfl, Finset.Subset.refl _⟩

theorem Extends.trans {m₁ m₂ m₃ : Marks α} (h : Extends m₁ m₂) (h' : Extends m₂ m₃) : Extends m₁ m₃ :=
  ⟨h'.visiting.trans h.visiting, h.visited.trans h'.visited⟩

theorem Settled.reaches {m : Marks α} (h : Settled next m) {a b : α} (ha : a ∈ m.visited)
    (hpath : TransGen (Edge next) a b) : b ∈ m.visited := by
  induction hpath with
  | single hedge => exact h.closed a ha _ hedge
  | tail _ hedge ih => exact h.closed _ ih _ hedge

def Searched (next : α → List α) (m : Marks α) (nodes : List α) : Except Stop (Marks α) → Prop
  | .ok m' => Extends m m' ∧ Settled next m' ∧ ∀ a ∈ nodes, a ∈ m'.visited
  | .error .cycle => ∃ a, TransGen (Edge next) a a
  | .error .depth => False

theorem Searched.of_error {m m' : Marks α} {nodes nodes' : List α} {stop : Stop}
    (h : Searched next m nodes (.error stop)) : Searched next m' nodes' (.error stop) := by
  cases stop with
  | cycle => exact h
  | depth => exact h

theorem searched_foldlM {search : Marks α → α → Except Stop (Marks α)} {nodes : List α} {m : Marks α}
    (hstep : ∀ m', m'.visiting = m.visiting → Settled next m' → ∀ a ∈ nodes, Searched next m' [a] (search m' a))
    (hm : Settled next m) : Searched next m nodes (nodes.foldlM search m) := by
  induction nodes generalizing m with
  | nil => exact ⟨Extends.refl m, hm, by simp⟩
  | cons node rest ih =>
    have hfirst := hstep m rfl hm node List.mem_cons_self
    rw [List.foldlM_cons]
    cases hsearch : search m node with
    | error stop =>
      rw [hsearch] at hfirst
      exact hfirst.of_error
    | ok m₁ =>
      rw [hsearch] at hfirst
      obtain ⟨hext, hm₁, hnode⟩ := hfirst
      have hrest := ih (m := m₁)
        (fun m' hm' hsettled a ha => hstep m' (hm'.trans hext.visiting) hsettled a (List.mem_cons_of_mem _ ha)) hm₁
      change Searched next m (node :: rest) (rest.foldlM search m₁)
      cases hfold : rest.foldlM search m₁ with
      | error stop =>
        rw [hfold] at hrest
        exact hrest.of_error
      | ok m₂ =>
        rw [hfold] at hrest
        obtain ⟨hext', hm₂, hvisited⟩ := hrest
        refine ⟨hext.trans hext', hm₂, ?_⟩
        intro a ha
        rcases List.mem_cons.mp ha with rfl | ha
        · exact hext'.visited (hnode a (by simp))
        · exact hvisited a ha

variable [DecidableEq α]

theorem Settled.leave {m : Marks α} {node : α} (hm : Settled next m) (hnode : node ∈ m.visiting)
    (hnext : ∀ b ∈ next node, b ∈ m.visited) :
    Settled next { visiting := m.visiting.erase node, visited := insert node m.visited } := by
  have hreached : ∀ b, TransGen (Edge next) node b → b ∈ m.visited := by
    intro b hpath
    rcases TransGen.head'_iff.mp hpath with ⟨c, hedge, hrest⟩
    rcases reflTransGen_iff_eq_or_transGen.mp hrest with rfl | hrest
    · exact hnext _ hedge
    · exact hm.reaches (hnext _ hedge) hrest
  refine ⟨?_, ?_, ?_⟩
  · intro a ha b hb
    rcases Finset.mem_insert.mp ha with rfl | ha
    · exact Finset.mem_insert_of_mem (hnext b hb)
    · exact Finset.mem_insert_of_mem (hm.closed a ha b hb)
  · intro a ha
    rcases Finset.mem_insert.mp ha with rfl | ha
    · intro hcycle
      exact hm.disjoint _ (hreached _ hcycle) hnode
    · exact hm.offCycle a ha
  · intro a ha
    rcases Finset.mem_insert.mp ha with rfl | ha
    · exact Finset.notMem_erase _ _
    · intro hmem
      exact hm.disjoint a ha (Finset.mem_of_mem_erase hmem)

/-- The search from a node that the stack leads to. `nodes` are the nodes of the graph: each frame
takes one of them from those that are not on the stack. -/
theorem searched_visit (nodes : Finset α) (hnodes : ∀ a ∈ nodes, ∀ b ∈ next a, b ∈ nodes) {fuel : ℕ} {m : Marks α}
    {node : α} (hnode : node ∈ nodes) (hfuel : (nodes \ m.visiting).card < fuel) (hm : Settled next m)
    (hleads : Leads next m node) : Searched next m [node] (visit next fuel m node) := by
  induction fuel generalizing m node with
  | zero => exact absurd hfuel (Nat.not_lt_zero _)
  | succ fuel ih =>
    rw [visit]
    split
    · next hvisited => exact ⟨Extends.refl m, hm, by simpa using hvisited⟩
    · next hvisited =>
      split
      · next hvisiting => exact ⟨node, hleads node hvisiting⟩
      · next hvisiting =>
        let entered : Marks α := { m with visiting := insert node m.visiting }
        have hentered : Settled next entered := by
          refine ⟨hm.closed, hm.offCycle, ?_⟩
          intro a ha hmem
          rcases Finset.mem_insert.mp hmem with rfl | hmem
          · exact hvisited ha
          · exact hm.disjoint a ha hmem
        have hcard : (nodes \ entered.visiting).card < fuel := by
          have hmem : node ∈ nodes \ m.visiting := Finset.mem_sdiff.mpr ⟨hnode, hvisiting⟩
          have herase : nodes \ entered.visiting = (nodes \ m.visiting).erase node := Finset.sdiff_insert _ _ _
          rw [herase, Finset.card_erase_of_mem hmem]
          have := Finset.card_pos.mpr ⟨node, hmem⟩
          omega
        have hfold : Searched next entered (next node) ((next node).foldlM (visit next fuel) entered) := by
          apply searched_foldlM ?_ hentered
          intro m' hm' hsettled b hb
          refine ih (hnodes node hnode b hb) (by rw [hm']; exact hcard) hsettled ?_
          intro a ha
          rw [hm'] at ha
          rcases Finset.mem_insert.mp ha with rfl | ha
          · exact .single hb
          · exact .tail (hleads a ha) hb
        change Searched next m [node] (((next node).foldlM (visit next fuel) entered) >>= fun m =>
          .ok { visiting := m.visiting.erase node, visited := insert node m.visited })
        cases hresult : (next node).foldlM (visit next fuel) entered with
        | error stop =>
          rw [hresult] at hfold
          exact hfold.of_error
        | ok m' =>
          rw [hresult] at hfold
          obtain ⟨hext, hsettled, hnext⟩ := hfold
          refine ⟨⟨?_, ?_⟩, ?_, by simp⟩
          · change m'.visiting.erase node = m.visiting
            rw [hext.visiting]
            exact Finset.erase_insert hvisiting
          · exact hext.visited.trans (Finset.subset_insert _ _)
          · refine hsettled.leave ?_ hnext
            rw [hext.visiting]
            exact Finset.mem_insert_self _ _

theorem visitAll_ok_iff {nodes : List α} (hnodes : ∀ a b, b ∈ next a → a ∈ nodes ∧ b ∈ nodes) {fuel : ℕ}
    (hfuel : nodes.length < fuel) : (∃ m, visitAll next fuel nodes = .ok m) ↔ ∀ a, OffCycle next a := by
  have hsearched : Searched next ⟨∅, ∅⟩ nodes (visitAll next fuel nodes) := by
    apply searched_foldlM ?_ ⟨by simp, by simp, by simp⟩
    intro m hm hsettled a ha
    have hcard : (nodes.toFinset \ m.visiting).card < fuel :=
      ((Finset.card_le_card Finset.sdiff_subset).trans nodes.toFinset_card_le).trans_lt hfuel
    refine searched_visit nodes.toFinset ?_ (List.mem_toFinset.mpr ha) hcard hsettled ?_
    · intro a _ b hb
      exact List.mem_toFinset.mpr (hnodes a b hb).2
    · intro b hb
      rw [hm] at hb
      exact absurd hb (Finset.notMem_empty b)
  cases hresult : visitAll next fuel nodes with
  | ok m =>
    rw [hresult] at hsearched
    refine ⟨?_, fun _ => ⟨m, rfl⟩⟩
    intro _ a hcycle
    obtain ⟨b, hedge, _⟩ := TransGen.head'_iff.mp hcycle
    exact hsearched.2.1.offCycle a (hsearched.2.2 a (hnodes a b hedge).1) hcycle
  | error stop =>
    rw [hresult] at hsearched
    cases stop with
    | depth => exact hsearched.elim
    | cycle =>
      obtain ⟨a, hcycle⟩ := hsearched
      refine ⟨?_, fun h => absurd hcycle (h a)⟩
      rintro ⟨m, hm⟩
      cases hm

end OpenMinion.DepthFirstSearch
