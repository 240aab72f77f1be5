import Mathlib.Algebra.GroupWithZero.Nat
import OpenMinion.CompressionTiers

/-!
# Words of texts

The words of a text are split at white space, so that texts joined by white space have the words of
each, and words joined by blanks are split again as they were.
-/
namespace OpenMinion.WordTexts
open CompressionTiers PythonText

def wordsOf (cs : List Char) : List (List Char) := (cs.splitOnP isSpace).filter fun word => word ≠ []

theorem words_eq (text : String) : words text = (wordsOf text.toList).map String.ofList := rfl

theorem wordsOf_nil : wordsOf [] = [] := rfl

theorem wordsOf_append_cons {c : Char} (hc : isSpace c = true) (before after : List Char) :
    wordsOf (before ++ c :: after) = wordsOf before ++ wordsOf after := by
  rw [wordsOf, List.splitOnP_append_cons before after hc, List.filter_append, wordsOf, wordsOf]

theorem wordsOf_spaces {separator : List Char} (hseparator : ∀ c ∈ separator, isSpace c = true) (hne : separator ≠ [])
    (before after : List Char) : wordsOf (before ++ separator ++ after) = wordsOf before ++ wordsOf after := by
  induction separator generalizing before with
  | nil => exact absurd rfl hne
  | cons c separator ih =>
    have hc : isSpace c = true := hseparator c List.mem_cons_self
    cases separator with
    | nil =>
      rw [List.append_assoc]
      exact wordsOf_append_cons hc before after
    | cons d separator =>
      have hrest := ih (fun e he => hseparator e (List.mem_cons_of_mem c he)) (List.cons_ne_nil d separator) []
      rw [wordsOf_nil, List.nil_append, List.nil_append] at hrest
      rw [List.append_assoc, List.cons_append, wordsOf_append_cons hc, hrest]

theorem wordsOf_intercalate {separator : List Char} (hseparator : ∀ c ∈ separator, isSpace c = true) (hne : separator ≠ [])
    (texts : List (List Char)) : wordsOf (separator.intercalate texts) = texts.flatMap wordsOf := by
  induction texts with
  | nil => rfl
  | cons text texts ih =>
    cases texts with
    | nil => simp
    | cons next texts =>
      rw [List.intercalate_cons_cons, wordsOf_spaces hseparator hne, ih]
      rfl

theorem words_intercalate {separator : String} (hseparator : ∀ c ∈ separator.toList, isSpace c = true) (hne : separator.toList ≠ [])
    (texts : List String) : words (separator.intercalate texts) = texts.flatMap words := by
  rw [words_eq, String.toList_intercalate, wordsOf_intercalate hseparator hne, List.flatMap_map, List.map_flatMap]
  rfl

/-- A word: it has characters, and none of them is white space. -/
def IsWord (cs : List Char) : Prop := cs ≠ [] ∧ ∀ c ∈ cs, isSpace c = false

theorem wordsOf_word {cs : List Char} (h : IsWord cs) : wordsOf cs = [cs] := by
  rw [wordsOf, List.splitOnP_eq_singleton h.2]
  simp [h.1]

theorem forall_mem_splitOnP {p : Char → Bool} (cs : List Char) : ∀ word ∈ cs.splitOnP p, ∀ c ∈ word, p c = false := by
  induction cs with
  | nil =>
    intro word hword c hc
    obtain rfl := List.mem_singleton.mp hword
    cases hc
  | cons d cs ih =>
    intro word hword
    rw [List.splitOnP_cons_eq_if_modifyHead] at hword
    split at hword
    · rcases List.mem_cons.mp hword with rfl | hrest
      · intro c hc
        cases hc
      · exact ih word hrest
    · next hd =>
      obtain ⟨first, rest, hsplit⟩ := List.exists_cons_of_ne_nil (List.splitOnP_ne_nil p cs)
      rw [hsplit] at hword ih
      rcases List.mem_cons.mp hword with rfl | hrest
      · intro c hc
        rcases List.mem_cons.mp hc with rfl | hin
        · exact Bool.not_eq_true _ ▸ hd
        · exact ih first List.mem_cons_self c hin
      · exact ih word (List.mem_cons_of_mem first hrest)

theorem isWord_of_mem {cs word : List Char} (h : word ∈ wordsOf cs) : IsWord word := by
  obtain ⟨hmem, hne⟩ := List.mem_filter.mp h
  exact ⟨of_decide_eq_true hne, forall_mem_splitOnP cs word hmem⟩

theorem words_joinWords {texts : List String} (h : ∀ text ∈ texts, IsWord text.toList) : words (joinWords texts) = texts := by
  have hblank : ∀ c ∈ " ".toList, isSpace c = true := by simp [isSpace]
  have hne : " ".toList ≠ [] := by decide +kernel
  rw [joinWords, words_intercalate hblank hne]
  induction texts with
  | nil => rfl
  | cons text texts ih =>
    rw [List.flatMap_cons, ih fun t ht => h t (List.mem_cons_of_mem text ht), words_eq, wordsOf_word (h text List.mem_cons_self),
      List.map_cons, String.ofList_toList]
    rfl

theorem isWord_of_mem_words {text word : String} (h : word ∈ words text) : IsWord word.toList := by
  rw [words_eq, List.mem_map] at h
  obtain ⟨cs, hcs, rfl⟩ := h
  rw [String.toList_ofList]
  exact isWord_of_mem hcs

theorem countTokens_take (text : String) (n : ℕ) : countTokens (joinWords ((words text).take n)) = min n (words text).length := by
  rw [countTokens, words_joinWords fun word hword => isWord_of_mem_words (List.mem_of_mem_take hword), List.length_take]

end OpenMinion.WordTexts
