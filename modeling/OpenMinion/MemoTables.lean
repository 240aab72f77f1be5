import OpenMinion.KeyedTables

/-!
# Memo tables

A table of values under keys of the inputs that they were computed from. A value found under the key of another input
is the right one when the two inputs compute the same.
-/
namespace OpenMinion.MemoTables
open KeyedTables

variable {Key Input Value : Type}

structure Entry (Key Input Value : Type) where
  key : Key
  input : Input
  value : Value

def Sound (computes : Input → Value → Prop) (t : List (Entry Key Input Value)) : Prop :=
  ∀ e ∈ t, computes e.input e.value

namespace Sound

variable {computes : Input → Value → Prop} {t : List (Entry Key Input Value)}

theorem nil : Sound computes ([] : List (Entry Key Input Value)) := by
  intro e he
  cases he

theorem deleteWhere (h : Sound computes t) (p : Entry Key Input Value → Bool) : Sound computes (deleteWhere p t) := by
  intro e he
  exact h e (List.mem_filter.mp he).1

theorem store [DecidableEq Key] (h : Sound computes t) {e : Entry Key Input Value} (he : computes e.input e.value) :
    Sound computes (upsertRow Entry.key e t) := by
  intro e' he'
  rcases mem_upsertRow he' with rfl | hmem
  · exact he
  · exact h e' hmem

theorem lookup [DecidableEq Key] (h : Sound computes t) {key : Key} {e : Entry Key Input Value}
    (he : lookup Entry.key key t = some e) : computes e.input e.value := h e (lookup_some he).1

end Sound

/-- Each entry is under the key of its input. -/
def Keyed (keyOf : Input → Key) (t : List (Entry Key Input Value)) : Prop := ∀ e ∈ t, e.key = keyOf e.input

namespace Keyed

variable {keyOf : Input → Key} {t : List (Entry Key Input Value)}

theorem nil : Keyed keyOf ([] : List (Entry Key Input Value)) := by
  intro e he
  cases he

theorem deleteWhere (h : Keyed keyOf t) (p : Entry Key Input Value → Bool) : Keyed keyOf (deleteWhere p t) := by
  intro e he
  exact h e (List.mem_filter.mp he).1

theorem store [DecidableEq Key] (h : Keyed keyOf t) {e : Entry Key Input Value} (he : e.key = keyOf e.input) :
    Keyed keyOf (upsertRow Entry.key e t) := by
  intro e' he'
  rcases mem_upsertRow he' with rfl | hmem
  · exact he
  · exact h e' hmem

end Keyed
end OpenMinion.MemoTables
