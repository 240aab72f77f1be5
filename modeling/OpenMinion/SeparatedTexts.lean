import Mathlib.Data.List.Zip

/-!
# Texts between separators

The segments of a text between the occurrences of a separator, and the ways in which a list
of segments is cut into parts.
-/
namespace OpenMinion.SeparatedTexts

section

variable {Symbol : Type} [DecidableEq Symbol]

def segments (separator : Symbol) (text : List Symbol) : List (List Symbol) := text.splitOn separator

theorem segments_ne_nil (separator : Symbol) (text : List Symbol) : segments separator text ≠ [] :=
  List.splitOn_ne_nil separator text

theorem segments_append_cons (separator : Symbol) (left right : List Symbol) :
    segments separator (left ++ separator :: right) = segments separator left ++ segments separator right :=
  List.splitOn_append_cons_self left right

theorem segments_of_not_mem {separator : Symbol} {text : List Symbol} (h : separator ∉ text) :
    segments separator text = [text] :=
  List.splitOn_eq_singleton h

theorem segments_injective (separator : Symbol) : Function.Injective (segments separator) := by
  intro left right h
  have hjoin : ∀ text : List Symbol, [separator].intercalate (segments separator text) = text := fun text =>
    List.intercalate_splitOn separator
  rw [← hjoin left, ← hjoin right, h]

theorem not_mem_of_mem_segments {separator : Symbol} {text segment : List Symbol} (h : segment ∈ segments separator text) :
    separator ∉ segment := by
  induction text generalizing segment with
  | nil =>
    rw [segments, List.splitOn_nil, List.mem_singleton] at h
    rw [h]
    exact List.not_mem_nil
  | cons x text ih =>
    rw [segments, List.splitOn_cons_eq_if_modifyHead] at h
    split at h
    · rcases List.mem_cons.mp h with rfl | h
      · exact List.not_mem_nil
      · exact ih h
    · next hx =>
      obtain ⟨first, rest, hsegments⟩ := List.exists_cons_of_ne_nil (segments_ne_nil separator text)
      rw [segments] at hsegments
      rw [hsegments, List.modifyHead_cons] at h
      rcases List.mem_cons.mp h with rfl | h
      · rw [List.mem_cons, not_or]
        refine ⟨fun heq => hx (by simp [heq]), ih ?_⟩
        rw [segments, hsegments]
        exact List.mem_cons_self
      · refine ih ?_
        rw [segments, hsegments]
        exact List.mem_cons_of_mem _ h

theorem segments_eq_iff {separator : Symbol} {text : List Symbol} {group : List (List Symbol)}
    (hgroup : ∀ segment ∈ group, separator ∉ segment) :
    segments separator text = group ↔ group ≠ [] ∧ text = [separator].intercalate group := by
  constructor
  · rintro rfl
    exact ⟨segments_ne_nil separator text, (List.intercalate_splitOn separator).symm⟩
  · rintro ⟨hne, rfl⟩
    exact List.splitOn_intercalate separator hgroup hne

end

variable {α : Type}

def cuts (l : List α) : List (List α × List α) := l.inits.zip l.tails

theorem mem_cuts {l left right : List α} : (left, right) ∈ cuts l ↔ left ++ right = l := List.mem_zip_inits_tails

end OpenMinion.SeparatedTexts
