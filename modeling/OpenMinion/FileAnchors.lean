import Mathlib.Logic.Function.Basic
import OpenMinion.FileEdits

/-!
# Anchors of file edits

`edit` applies its operations in turn, each of which must find its anchor once. `content.count` counts without
overlaps, so that an anchor that overlaps itself can be counted once where it occurs twice.
-/
namespace OpenMinion.FileAnchors
open FileEdits

def OccursAt (old content : List Char) (start : ℕ) : Prop := old <+: content.drop start

instance (old content : List Char) (start : ℕ) : Decidable (OccursAt old content start) :=
  inferInstanceAs (Decidable (old <+: content.drop start))

def OnlyAt (old content : List Char) (start : ℕ) : Prop :=
  OccursAt old content start ∧ ∀ i, OccursAt old content i → i = start

/-- `content.count(old)` is 1 and `content.index(old)` is that position. -/
def CountedAt (old content : List Char) (start : ℕ) : Prop := occurrences old 0 0 content = [start]

theorem occurrences_occurs {old : List Char} (hold : old ≠ []) {skip index start : ℕ} {cs : List Char}
    (h : start ∈ occurrences old skip index cs) : ∃ i, start = index + i ∧ skip ≤ i ∧ OccursAt old cs i := by
  induction cs generalizing skip index with
  | nil =>
    rw [occurrences, if_neg hold] at h
    cases h
  | cons c cs ih =>
    cases skip with
    | succ skip =>
      rw [occurrences] at h
      obtain ⟨i, hstart, hskip, hoccurs⟩ := ih h
      exact ⟨i + 1, by omega, by omega, hoccurs⟩
    | zero =>
      rw [occurrences] at h
      split at h
      · next hhere =>
        rcases List.mem_cons.mp h with rfl | h
        · exact ⟨0, rfl, le_rfl, List.isPrefixOf_iff_prefix.mp hhere⟩
        · obtain ⟨i, hstart, -, hoccurs⟩ := ih h
          exact ⟨i + 1, by omega, by omega, hoccurs⟩
      · obtain ⟨i, hstart, -, hoccurs⟩ := ih h
        exact ⟨i + 1, by omega, by omega, hoccurs⟩

theorem occurrences_ne_nil {old : List Char} (hold : old ≠ []) {skip index i : ℕ} {cs : List Char} (hskip : skip ≤ i)
    (h : OccursAt old cs i) : occurrences old skip index cs ≠ [] := by
  induction cs generalizing skip index i with
  | nil =>
    rw [OccursAt, List.drop_nil, List.prefix_nil] at h
    exact absurd h hold
  | cons c cs ih =>
    cases skip with
    | succ skip =>
      obtain ⟨i, rfl⟩ := Nat.exists_eq_succ_of_ne_zero (Nat.ne_of_gt (Nat.lt_of_lt_of_le (Nat.succ_pos skip) hskip))
      rw [occurrences]
      exact ih (Nat.le_of_succ_le_succ hskip) h
    | zero =>
      rw [occurrences]
      split
      · exact List.cons_ne_nil _ _
      · next hnot =>
        cases i with
        | zero => exact absurd (List.isPrefixOf_iff_prefix.mpr h) hnot
        | succ i => exact ih (Nat.zero_le i) h

theorem occurrences_sorted {old : List Char} (hold : old ≠ []) (skip index : ℕ) (cs : List Char) :
    (occurrences old skip index cs).Pairwise (· < ·) := by
  induction cs generalizing skip index with
  | nil =>
    rw [occurrences, if_neg hold]
    exact List.Pairwise.nil
  | cons c cs ih =>
    cases skip with
    | succ skip => exact ih skip (index + 1)
    | zero =>
      rw [occurrences]
      split
      · refine List.pairwise_cons.mpr ⟨?_, ih _ _⟩
        intro start hstart
        obtain ⟨i, hi, -, -⟩ := occurrences_occurs hold hstart
        omega
      · exact ih 0 (index + 1)

theorem CountedAt.occursAt {old content : List Char} {start : ℕ} (hold : old ≠ []) (h : CountedAt old content start) :
    OccursAt old content start := by
  have hmem : start ∈ occurrences old 0 0 content := by
    rw [h]
    exact List.mem_singleton.mpr rfl
  obtain ⟨i, hi, -, hoccurs⟩ := occurrences_occurs hold hmem
  rw [hi, Nat.zero_add]
  exact hoccurs

theorem OnlyAt.countedAt {old content : List Char} {start : ℕ} (hold : old ≠ []) (h : OnlyAt old content start) :
    CountedAt old content start := by
  have hall : ∀ i ∈ occurrences old 0 0 content, i = start := by
    intro i hi
    obtain ⟨j, hj, -, hoccurs⟩ := occurrences_occurs hold hi
    rw [hj, Nat.zero_add]
    exact h.2 j hoccurs
  have hsorted := occurrences_sorted hold 0 0 content
  rw [CountedAt]
  cases hlist : occurrences old 0 0 content with
  | nil => exact absurd hlist (occurrences_ne_nil hold (Nat.zero_le start) h.1)
  | cons i others =>
    rw [hlist] at hall hsorted
    cases others with
    | nil => rw [hall i List.mem_cons_self]
    | cons j others =>
      have hlt := (List.pairwise_cons.mp hsorted).1 j List.mem_cons_self
      rw [hall i List.mem_cons_self, hall j (List.mem_cons_of_mem i List.mem_cons_self)] at hlt
      exact absurd hlt (lt_irrefl start)

def separatorOf (operation : EditOperation) (before after : List Char) : List Char :=
  let adjacent := if operation.op = .insertBefore then endNewline before else newlineAt after
  (adjacent.or (firstNewline (before ++ operation.oldText.toList ++ after))).getD ['\n']

def replacementOf (operation : EditOperation) (before after : List Char) : List Char :=
  match operation.op with
  | .replace => operation.newText.toList
  | .insertBefore => operation.newText.toList ++ separatorOf operation before after ++ operation.oldText.toList
  | .insertAfter => operation.oldText.toList ++ separatorOf operation before after ++ operation.newText.toList
  | .unknown => operation.oldText.toList

def lineSeparators : List (List Char) := [['\r', '\n'], ['\r'], ['\n']]

theorem newlineAt_mem {cs newline : List Char} (h : newlineAt cs = some newline) : newline ∈ lineSeparators := by
  rw [newlineAt.eq_def] at h
  split at h
  · rw [← Option.some.inj h]
    decide
  · rw [← Option.some.inj h]
    decide
  · rw [← Option.some.inj h]
    decide
  · cases h

theorem firstNewline_mem {cs newline : List Char} (h : firstNewline cs = some newline) : newline ∈ lineSeparators := by
  induction cs with
  | nil => cases h
  | cons c cs ih =>
    rw [firstNewline, Option.or_eq_some_iff] at h
    rcases h with h | ⟨-, h⟩
    · exact newlineAt_mem h
    · exact ih h

theorem endNewline_mem {cs newline : List Char} (h : endNewline cs = some newline) : newline ∈ lineSeparators := by
  induction cs with
  | nil => cases h
  | cons c cs ih =>
    rw [endNewline] at h
    split at h
    · next newline' hnewline =>
      dsimp only at h
      split at h
      · rw [← Option.some.inj h]
        exact newlineAt_mem hnewline
      · exact ih h
    · exact ih h

theorem separatorOf_mem (operation : EditOperation) (before after : List Char) :
    separatorOf operation before after ∈ lineSeparators := by
  have hadjacent : ∀ newline ∈ (if operation.op = .insertBefore then endNewline before else newlineAt after),
      newline ∈ lineSeparators := by
    intro newline hnewline
    split at hnewline
    · exact endNewline_mem hnewline
    · exact newlineAt_mem hnewline
  have hchosen : ∀ newline ∈ (if operation.op = .insertBefore then endNewline before else newlineAt after).or
      (firstNewline (before ++ operation.oldText.toList ++ after)), newline ∈ lineSeparators := by
    intro newline hnewline
    rcases Option.or_eq_some_iff.mp hnewline with hnewline | ⟨-, hnewline⟩
    · exact hadjacent newline hnewline
    · exact firstNewline_mem hnewline
  rw [separatorOf]
  cases hseparator : (if operation.op = .insertBefore then endNewline before else newlineAt after).or
      (firstNewline (before ++ operation.oldText.toList ++ after)) with
  | none => decide
  | some newline => exact hchosen newline hseparator

/-- The operation replaces its anchor, or puts the new text and a line separator beside it. -/
def Lands (operation : EditOperation) (replacement : List Char) : Prop :=
  match operation.op with
  | .replace => replacement = operation.newText.toList
  | .insertBefore => ∃ separator ∈ lineSeparators,
      replacement = operation.newText.toList ++ separator ++ operation.oldText.toList
  | .insertAfter => ∃ separator ∈ lineSeparators,
      replacement = operation.oldText.toList ++ separator ++ operation.newText.toList
  | .unknown => False

variable {operation : EditOperation} {content : List Char}

theorem replacementOf_lands (hknown : operation.op ≠ .unknown) (before after : List Char) :
    Lands operation (replacementOf operation before after) := by
  rw [Lands, replacementOf]
  cases hop : operation.op with
  | replace => rfl
  | insertBefore => exact ⟨_, separatorOf_mem operation before after, rfl⟩
  | insertAfter => exact ⟨_, separatorOf_mem operation before after, rfl⟩
  | unknown => exact absurd hop hknown

theorem applyOperation_counted (hknown : operation.op ≠ .unknown) {before after : List Char}
    (hcounted : CountedAt operation.oldText.toList (before ++ operation.oldText.toList ++ after) before.length) :
    applyOperation (before ++ operation.oldText.toList ++ after) operation =
      some (before ++ replacementOf operation before after ++ after) := by
  have htake : (before ++ operation.oldText.toList ++ after).take before.length = before := by
    rw [List.append_assoc, List.take_left]
  have hdrop : (before ++ operation.oldText.toList ++ after).drop (before.length + operation.oldText.toList.length) = after := by
    rw [← List.length_append, List.drop_left]
  rw [CountedAt] at hcounted
  simp only [applyOperation, hcounted, htake, hdrop, replacementOf, separatorOf]
  cases hop : operation.op with
  | replace => rfl
  | insertBefore => rfl
  | insertAfter => rfl
  | unknown => exact absurd hop hknown

theorem OccursAt.split {old : List Char} {start : ℕ} (hold : old ≠ []) (h : OccursAt old content start) :
    ∃ before after, content = before ++ old ++ after ∧ before.length = start := by
  obtain ⟨after, hafter⟩ := h
  refine ⟨content.take start, after, ?_, ?_⟩
  · rw [List.append_assoc, hafter, List.take_append_drop]
  · have hlength := congrArg List.length hafter
    have hpositive := List.length_pos_of_ne_nil hold
    rw [List.length_append, List.length_drop] at hlength
    rw [List.length_take]
    omega

theorem applyOperation_eq_some_iff (hold : operation.oldText.toList ≠ []) (hknown : operation.op ≠ .unknown) {edited : List Char} :
    applyOperation content operation = some edited ↔
      ∃ before after, content = before ++ operation.oldText.toList ++ after ∧
        CountedAt operation.oldText.toList content before.length ∧
        edited = before ++ replacementOf operation before after ++ after := by
  constructor
  · intro h
    have hcounted : ∃ start, CountedAt operation.oldText.toList content start := by
      rw [applyOperation] at h
      split at h
      · next start hcounted => exact ⟨start, hcounted⟩
      · cases h
    obtain ⟨start, hcounted⟩ := hcounted
    obtain ⟨before, after, rfl, rfl⟩ := (hcounted.occursAt hold).split hold
    rw [applyOperation_counted hknown hcounted] at h
    exact ⟨before, after, rfl, hcounted, (Option.some.inj h).symm⟩
  · rintro ⟨before, after, rfl, hcounted, rfl⟩
    exact applyOperation_counted hknown hcounted

/-- The operations have anchors and are of the three kinds that the tool accepts. -/
def Accepted (operations : List EditOperation) : Prop :=
  ∀ operation ∈ operations, operation.oldText.toList ≠ [] ∧ operation.op ≠ .unknown

/-- The operations take one text to another, each finding its anchor at a place that is of that kind. -/
inductive Applied (once : List Char → List Char → ℕ → Prop) : List Char → List EditOperation → List Char → Prop
  | nil (content : List Char) : Applied once content [] content
  | cons {operation : EditOperation} {before after : List Char} {operations : List EditOperation} {edited : List Char}
      (found : once operation.oldText.toList (before ++ operation.oldText.toList ++ after) before.length)
      (rest : Applied once (before ++ replacementOf operation before after ++ after) operations edited) :
      Applied once (before ++ operation.oldText.toList ++ after) (operation :: operations) edited

variable {operations : List EditOperation} {edited : List Char}

theorem editContent_eq_some_iff (haccepted : Accepted operations) :
    editContent content operations = some edited ↔ Applied CountedAt content operations edited := by
  induction operations generalizing content with
  | nil =>
    constructor
    · intro h
      rw [← Option.some.inj h]
      exact .nil content
    · rintro ⟨⟩
      rfl
  | cons operation operations ih =>
    obtain ⟨hold, hknown⟩ := haccepted operation List.mem_cons_self
    have hrest : Accepted operations := fun other hother => haccepted other (List.mem_cons_of_mem operation hother)
    rw [editContent, List.foldlM_cons, Option.bind_eq_bind, Option.bind_eq_some_iff]
    constructor
    · rintro ⟨next, hnext, hedited⟩
      obtain ⟨before, after, rfl, hcounted, rfl⟩ := (applyOperation_eq_some_iff hold hknown).mp hnext
      exact .cons hcounted ((ih hrest).mp hedited)
    · rintro ⟨⟩
      next before after found rest =>
        exact ⟨_, applyOperation_counted hknown found, (ih hrest).mpr rest⟩

theorem Applied.counted (haccepted : Accepted operations) (h : Applied OnlyAt content operations edited) :
    Applied CountedAt content operations edited := by
  induction h with
  | nil content => exact .nil content
  | cons found rest ih =>
    have hold := (haccepted _ List.mem_cons_self).1
    exact .cons (found.countedAt hold) (ih fun other hother => haccepted other (List.mem_cons_of_mem _ hother))

/-- In a text that the operations reach by counting, an anchor that is counted once stands nowhere else. -/
def NoOverlap (content : List Char) (operations : List EditOperation) : Prop :=
  ∀ done operation left before after, operations = done ++ operation :: left →
    Applied CountedAt content done (before ++ operation.oldText.toList ++ after) →
    CountedAt operation.oldText.toList (before ++ operation.oldText.toList ++ after) before.length →
    OnlyAt operation.oldText.toList (before ++ operation.oldText.toList ++ after) before.length

theorem split_unique {old before after before' after' : List Char} (h : before ++ old ++ after = before' ++ old ++ after')
    (hlength : before.length = before'.length) : before = before' ∧ after = after' := by
  rw [List.append_assoc, List.append_assoc] at h
  obtain ⟨hbefore, hrest⟩ := List.append_inj h hlength
  exact ⟨hbefore, List.append_cancel_left hrest⟩

theorem Applied.noOverlap (haccepted : Accepted operations) (h : Applied OnlyAt content operations edited) :
    NoOverlap content operations := by
  intro done operation left before after hsplit hdone hcounted
  induction done generalizing content operations with
  | nil =>
    subst hsplit
    cases hdone
    have hold := (haccepted operation List.mem_cons_self).1
    generalize hcontent : before ++ operation.oldText.toList ++ after = content at h hcounted ⊢
    cases h with
    | cons found rest =>
      have hstart := (found.2 _ (hcounted.occursAt hold))
      rw [hstart]
      exact found
  | cons first done ih =>
    subst hsplit
    have hold := (haccepted first List.mem_cons_self).1
    have hrest : Accepted (done ++ operation :: left) := fun other hother => haccepted other (List.mem_cons_of_mem first hother)
    generalize hcontent : content = start at h hdone
    cases hdone with
    | @cons _ before' after' _ _ found' rest' =>
      generalize hsame : before' ++ first.oldText.toList ++ after' = text at h found'
      cases h with
      | @cons _ before'' after'' _ _ found rest =>
        obtain ⟨rfl, rfl⟩ := split_unique hsame (found.2 _ (found'.occursAt hold))
        exact ih hrest rest rfl rest'

theorem Applied.only (h : Applied CountedAt content operations edited) (hno : NoOverlap content operations) :
    Applied OnlyAt content operations edited := by
  induction h with
  | nil content => exact .nil content
  | @cons operation before after operations edited found rest ih =>
    refine .cons (hno [] operation operations before after rfl (.nil _) found) (ih ?_)
    intro done other left before' after' hsplit hdone hcounted
    refine hno (operation :: done) other left before' after' ?_ (.cons found hdone) hcounted
    rw [hsplit, List.cons_append]

structure EditResult where
  path : String
  operationsApplied : ℕ
  dryRun : Bool
  preview : Option String

/-- What `edit` uses of a storage backend: the text of a file, if it is one, and the writing of it. -/
structure Backend (Store : Type) where
  /-- `str(Path(path))`. -/
  normalize : String → String
  read : Store → String → Option (List Char)
  write : Store → String → List Char → Store
  read_write : ∀ s path text, (read s path).isSome → read (write s path text) path = some text
  read_write_of_ne : ∀ s path text other, normalize other ≠ normalize path → read (write s path text) other = read s other

/-- `edit`; without a result it raises. -/
def Backend.edit {Store : Type} (backend : Backend Store) (s : Store) (path : String) (operations : List EditOperation)
    (dryRun : Bool) : Store × Option EditResult :=
  match backend.read s path with
  | none => (s, none)
  | some content =>
    match editContent content operations with
    | none => (s, none)
    | some edited =>
      if dryRun then (s, some ⟨backend.normalize path, operations.length, true, some (String.ofList edited)⟩)
      else (backend.write s path edited, some ⟨backend.normalize path, operations.length, false, none⟩)

/-- The files of an `InMemoryStorageBackend`, and its directories. -/
structure MemoryFiles where
  files : String → Option String
  dirs : String → Bool

/-- `InMemoryStorageBackend`. -/
def memoryStorage (normalize : String → String) : Backend MemoryFiles where
  normalize := normalize
  read s path := (s.files (normalize path)).map String.toList
  write s path text := { s with files := Function.update s.files (normalize path) (some (String.ofList text)) }
  read_write s path text _ := by
    simp only [Function.update_self, Option.map_some, String.toList_ofList]
  read_write_of_ne s path text other h := by
    simp only [Function.update_of_ne h]

section
variable {Store : Type} (backend : Backend Store)

theorem edit_isSome_iff {s : Store} {path : String} (hread : backend.read s path = some content) (dryRun : Bool) :
    (∃ r, (backend.edit s path operations dryRun).2 = some r) ↔ ∃ edited, editContent content operations = some edited := by
  simp only [Backend.edit, hread]
  cases editContent content operations with
  | none => simp
  | some edited => cases dryRun <;> simp

/-- An edit succeeds on the anchors with one position exactly if no anchor overlaps itself where it is counted once;
it writes and previews what the operations make of the text. -/
theorem edit_anchored_iff {s : Store} {path : String} (hread : backend.read s path = some content)
    (haccepted : Accepted operations) :
    (((∃ r, (backend.edit s path operations false).2 = some r) ↔ ∃ edited, Applied OnlyAt content operations edited) ↔
      ∀ edited, Applied CountedAt content operations edited → NoOverlap content operations) ∧
    (∀ s' r, backend.edit s path operations false = (s', some r) →
      ∃ edited, Applied CountedAt content operations edited ∧ backend.read s' path = some edited ∧
        (∀ other, backend.normalize other ≠ backend.normalize path → backend.read s' other = backend.read s other) ∧
        ∃ preview, backend.edit s path operations true = (s, some preview) ∧ preview.preview = some (String.ofList edited)) ∧
    (∀ s', backend.edit s path operations false = (s', none) →
      s' = s ∧ backend.edit s path operations true = (s, none)) ∧
    ∀ operation ∈ operations, ∀ before after, Lands operation (replacementOf operation before after) := by
  refine ⟨?_, ?_, ?_, fun operation hoperation => replacementOf_lands (haccepted operation hoperation).2⟩
  · rw [edit_isSome_iff backend hread]
    simp only [editContent_eq_some_iff haccepted]
    constructor
    · intro h edited hcounted
      obtain ⟨edited', honly⟩ := h.mp ⟨edited, hcounted⟩
      exact honly.noOverlap haccepted
    · intro hno
      constructor
      · rintro ⟨edited, hcounted⟩
        exact ⟨edited, hcounted.only (hno edited hcounted)⟩
      · rintro ⟨edited, honly⟩
        exact ⟨edited, honly.counted haccepted⟩
  · intro s' r h
    simp only [Backend.edit, hread] at h ⊢
    cases hedited : editContent content operations with
    | none =>
      rw [hedited] at h
      cases h
    | some edited =>
      rw [hedited] at h
      obtain ⟨rfl, -⟩ := Prod.mk.inj h
      refine ⟨edited, (editContent_eq_some_iff haccepted).mp hedited, ?_, ?_, _, rfl, rfl⟩
      · exact backend.read_write s path edited (by rw [hread]; rfl)
      · exact fun other hother => backend.read_write_of_ne s path edited other hother
  · intro s' h
    simp only [Backend.edit, hread] at h ⊢
    cases hedited : editContent content operations with
    | none =>
      rw [hedited] at h
      exact ⟨(congrArg Prod.fst h).symm, rfl⟩
    | some edited =>
      rw [hedited] at h
      cases h

end

def oneFile (text : String) : MemoryFiles where
  files path := if path = "notes" then some text else none
  dirs _ := false

def replaceDouble : EditOperation := ⟨.replace, "aa", "b"⟩

def appendEnd : EditOperation := ⟨.insertAfter, "bb", "end"⟩

/-- The anchor of the second operation is the text that the first one has put there. -/
theorem edit_anchored_iff_inTurn :
    ((∃ r, ((memoryStorage id).edit (oneFile "aab") "notes" [replaceDouble, appendEnd] false).2 = some r) ↔
      ∃ edited, Applied OnlyAt "aab".toList [replaceDouble, appendEnd] edited) ↔
      ∀ edited, Applied CountedAt "aab".toList [replaceDouble, appendEnd] edited →
        NoOverlap "aab".toList [replaceDouble, appendEnd] := by
  refine (edit_anchored_iff (memoryStorage id) rfl ?_).1
  intro operation hoperation
  rcases List.mem_pair.mp hoperation with rfl | rfl
  · exact ⟨by decide, by decide⟩
  · exact ⟨by decide, by decide⟩

/-- `aa` is counted once in `aaa`, where it stands at two positions. -/
theorem edit_overlapping :
    (∃ r, ((memoryStorage id).edit (oneFile "aaa") "notes" [replaceDouble] false).2 = some r) ∧
      ¬ ∃ edited, Applied OnlyAt "aaa".toList [replaceDouble] edited := by
  constructor
  · exact ⟨⟨"notes", 1, false, none⟩, rfl⟩
  · rintro ⟨edited, h⟩
    generalize hcontent : "aaa".toList = content at h
    cases h with
    | cons found rest =>
      rw [← hcontent] at found
      have hfirst := found.2 0 (by decide)
      have hsecond := found.2 1 (by decide)
      omega

end OpenMinion.FileAnchors
