import Mathlib.Data.List.Infix

/-!
# Delimited texts

Where a delimiter occurs in a text that it closes. The text is a body, a separator that the
delimiter does not have, and the delimiter.
-/
namespace OpenMinion.DelimitedText

variable {Symbol : Type}

/-- The delimiter occurs once, and the text ends with it. -/
def OnlyAtEnd (delimiter text : List Symbol) : Prop :=
  ∀ i, delimiter <+: text.drop i ↔ i + delimiter.length = text.length

def afterFirst [DecidableEq Symbol] (delimiter : List Symbol) : List Symbol → Option (List Symbol)
  | [] => if delimiter = [] then some [] else none
  | x :: text => if delimiter <+: x :: text then some ((x :: text).drop delimiter.length) else afterFirst delimiter text

theorem afterFirst_append [DecidableEq Symbol] {x : Symbol} {before : List Symbol} (hx : x ∉ before) (delimiter rest : List Symbol) :
    afterFirst (x :: delimiter) (before ++ x :: delimiter ++ rest) = some rest := by
  induction before with
  | nil =>
    have hhere : x :: delimiter <+: x :: (delimiter ++ rest) := by simp
    simp only [List.nil_append, List.cons_append, afterFirst, if_pos hhere]
    simp
  | cons y before ih =>
    obtain ⟨hxy, hbefore⟩ := not_or.mp (fun h => hx (List.mem_cons.mpr h))
    have hnot : ¬ x :: delimiter <+: y :: (before ++ x :: delimiter ++ rest) := by
      rw [List.cons_prefix_cons]
      exact fun h => hxy h.1
    rw [List.cons_append, List.cons_append, afterFirst, if_neg hnot]
    exact ih hbefore

theorem prefix_of_prefix_append {separator : Symbol} {delimiter : List Symbol} (hseparator : separator ∉ delimiter)
    {body rest : List Symbol} (h : delimiter <+: body ++ separator :: rest) : delimiter <+: body := by
  induction body generalizing delimiter with
  | nil =>
    rcases List.prefix_cons_iff.mp h with rfl | ⟨tail, rfl, -⟩
    · exact List.nil_prefix
    · exact absurd List.mem_cons_self hseparator
  | cons y body ih =>
    rcases List.prefix_cons_iff.mp h with rfl | ⟨tail, rfl, htail⟩
    · exact List.nil_prefix
    · rw [List.cons_prefix_cons]
      exact ⟨rfl, ih (fun hmem => hseparator (List.mem_cons_of_mem _ hmem)) htail⟩

theorem infix_cons_separator {separator : Symbol} {delimiter : List Symbol} (hseparator : separator ∉ delimiter)
    (hne : delimiter ≠ []) (body : List Symbol) : delimiter <:+: separator :: body ↔ delimiter <:+: body := by
  constructor
  · intro h
    rcases List.infix_cons_iff.mp h with hprefix | hbody
    · have happend : delimiter <+: [] ++ separator :: body := hprefix
      have hnil := prefix_of_prefix_append hseparator happend
      exact absurd (List.prefix_nil.mp hnil) hne
    · exact hbody
  · exact fun h => List.infix_cons_iff.mpr (.inr h)

theorem onlyAtEnd_iff {separator : Symbol} {delimiter : List Symbol} (hseparator : separator ∉ delimiter)
    (hne : delimiter ≠ []) (body : List Symbol) :
    OnlyAtEnd delimiter (body ++ separator :: delimiter) ↔ ¬ delimiter <:+: body := by
  have hpositive : 0 < delimiter.length := List.length_pos_iff.mpr hne
  constructor
  · rintro h ⟨before, after, rfl⟩
    have hearly : delimiter <+: (before ++ delimiter ++ after ++ separator :: delimiter).drop before.length := by simp
    have hlength := (h before.length).mp hearly
    simp only [List.length_append, List.length_cons] at hlength
    omega
  · intro hbody i
    constructor
    · intro hprefix
      by_contra hlength
      have hle := hprefix.length_le
      simp only [List.length_drop, List.length_append, List.length_cons] at hle hlength
      have hi : i ≤ body.length := by omega
      rw [List.drop_append_of_le_length hi] at hprefix
      exact hbody ((prefix_of_prefix_append hseparator hprefix).isInfix.trans (List.drop_suffix i body).isInfix)
    · intro hlength
      simp only [List.length_append, List.length_cons] at hlength
      obtain rfl : i = body.length + 1 := by omega
      simp

end OpenMinion.DelimitedText
