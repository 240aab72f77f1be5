import Mathlib.Data.List.Forall2

/-!
# Substitution of the matches of a pattern

`re.sub` replaces the matches of a pattern from the left. The patterns here start at a word
boundary with a word character. Where the result of a substitution has a match, the text had one.
-/
namespace OpenMinion.TextSubstitutions

variable (isWord : Char → Bool)

def startsWord (s : List Char) : Bool := s.head?.any isWord

/-- Whether a word character stands before what follows `s`. -/
def context (afterWord : Bool) (s : List Char) : Bool := s.foldl (fun _ c => isWord c) afterWord

def reads : List (Char → Bool) → Bool → List Char → Bool
  | [], afterWord, s => afterWord != startsWord isWord s
  | _ :: _, _, [] => false
  | kind :: kinds, _, c :: cs => kind c && reads kinds (isWord c) cs

def longestRun (kind : Char → Bool) (least : ℕ) (afterWord : Bool) (s : List Char) : Option ℕ :=
  (List.range (s.length + 1)).reverse.find? fun n =>
    decide (least ≤ n) && reads isWord (List.replicate n kind) afterWord s

/-- `re.subn` for a pattern that finds the length of a match and its replacement; `skip` characters
belong to the match before. -/
def substitute (find : List Char → Option (ℕ × List Char)) : ℕ → Bool → List Char → List Char × ℕ
  | _, _, [] => ([], 0)
  | skip + 1, _, c :: cs => substitute find skip (isWord c) cs
  | 0, afterWord, c :: cs =>
    match if afterWord then none else find (c :: cs) with
    | none =>
      let rest := substitute find 0 (isWord c) cs
      (c :: rest.1, rest.2)
    | some (length, replacement) =>
      let rest := substitute find (length - 1) (isWord c) cs
      (replacement ++ rest.1, rest.2 + 1)

variable {isWord} {find : List Char → Option (ℕ × List Char)} {Keep : List Char → Prop}
  {afterWord : Bool} {c : Char} {s rest out : List Char} {kinds : List (Char → Bool)}

@[simp] theorem startsWord_cons : startsWord isWord (c :: s) = isWord c := rfl

@[simp] theorem startsWord_nil : startsWord isWord [] = false := rfl

@[simp] theorem context_nil : context isWord afterWord [] = afterWord := rfl

@[simp] theorem context_cons : context isWord afterWord (c :: s) = context isWord (isWord c) s := rfl

@[simp] theorem reads_nil : reads isWord [] afterWord s = (afterWord != startsWord isWord s) := rfl

@[simp] theorem reads_cons {kind : Char → Bool} :
    reads isWord (kind :: kinds) afterWord (c :: s) = (kind c && reads isWord kinds (isWord c) s) := rfl

theorem context_eq_false {m : List Char} (hne : m ≠ []) (h : ∀ c ∈ m, isWord c = false) :
    context isWord afterWord m = false := by
  induction m generalizing afterWord with
  | nil => exact absurd rfl hne
  | cons c m ih =>
    cases m with
    | nil => exact h c List.mem_cons_self
    | cons d m => exact @ih (isWord c) (List.cons_ne_nil _ _) fun e he => h e (List.mem_cons_of_mem _ he)

theorem forall₂_replicate {kind : Char → Bool} {n : ℕ} {m : List Char} :
    List.Forall₂ (fun kind c => kind c = true) (List.replicate n kind) m ↔ m.length = n ∧ ∀ c ∈ m, kind c = true := by
  induction n generalizing m with
  | zero =>
    rw [List.replicate_zero, List.forall₂_nil_left_iff, List.length_eq_zero_iff]
    constructor
    · rintro rfl
      exact ⟨rfl, fun c hc => absurd hc List.not_mem_nil⟩
    · exact And.left
  | succ n ih =>
    cases m with
    | nil => simp [List.replicate_succ]
    | cons c m =>
      rw [List.replicate_succ, List.forall₂_cons, ih, List.forall_mem_cons, List.length_cons, Nat.add_right_cancel_iff]
      exact and_left_comm

theorem reads_eq_true (h : reads isWord kinds afterWord s = true) :
    ∃ m rest, s = m ++ rest ∧ List.Forall₂ (fun kind c => kind c = true) kinds m ∧
      (startsWord isWord rest = true → context isWord afterWord m = false) := by
  induction kinds generalizing afterWord s with
  | nil =>
    refine ⟨[], s, rfl, .nil, ?_⟩
    intro hrest
    simpa [hrest] using h
  | cons kind kinds ih =>
    cases s with
    | nil => cases h
    | cons c cs =>
      rw [reads_cons, Bool.and_eq_true] at h
      obtain ⟨m, rest, rfl, hkinds, hend⟩ := ih h.2
      exact ⟨c :: m, rest, rfl, .cons h.1 hkinds, hend⟩

theorem reads_append {kinds' : List (Char → Bool)} (h : reads isWord (kinds ++ kinds') afterWord s = true) :
    ∃ m rest, s = m ++ rest ∧ List.Forall₂ (fun kind c => kind c = true) kinds m ∧
      reads isWord kinds' (context isWord afterWord m) rest = true := by
  induction kinds generalizing afterWord s with
  | nil => exact ⟨[], s, rfl, .nil, h⟩
  | cons kind kinds ih =>
    cases s with
    | nil => cases h
    | cons c cs =>
      rw [List.cons_append, reads_cons, Bool.and_eq_true] at h
      obtain ⟨m, rest, rfl, hkinds, hrest⟩ := ih h.2
      exact ⟨c :: m, rest, rfl, .cons h.1 hkinds, hrest⟩

theorem reads_append_of {kinds' : List (Char → Bool)} {m : List Char}
    (hm : List.Forall₂ (fun kind c => kind c = true) kinds m)
    (h : reads isWord kinds' (context isWord afterWord m) rest = true) :
    reads isWord (kinds ++ kinds') afterWord (m ++ rest) = true := by
  induction hm generalizing afterWord with
  | nil => exact h
  | cons hc hrest ih =>
    rw [List.cons_append, List.cons_append, reads_cons, Bool.and_eq_true]
    exact ⟨hc, ih h⟩

theorem length_le_of_reads (h : reads isWord kinds afterWord s = true) : kinds.length ≤ s.length := by
  obtain ⟨m, rest, rfl, hkinds, -⟩ := reads_eq_true h
  rw [List.length_append, hkinds.length_eq]
  omega

theorem longestRun_eq_some {kind : Char → Bool} {least n : ℕ} (h : longestRun isWord kind least afterWord s = some n) :
    least ≤ n ∧ reads isWord (List.replicate n kind) afterWord s = true := by
  have hfound := List.find?_some h
  rw [Bool.and_eq_true, decide_eq_true_eq] at hfound
  exact hfound

theorem longestRun_eq_none {kind : Char → Bool} {least : ℕ} (h : longestRun isWord kind least afterWord s = none)
    {n : ℕ} (hn : least ≤ n) : reads isWord (List.replicate n kind) afterWord s = false := by
  by_contra hreads
  have hreads' := (Bool.not_eq_false _).mp hreads
  have hlength := length_le_of_reads hreads'
  rw [List.length_replicate] at hlength
  have hmem : n ∈ (List.range (s.length + 1)).reverse := by
    rw [List.mem_reverse, List.mem_range]
    omega
  have hnot := List.find?_eq_none.mp h n hmem
  simp [hn, hreads'] at hnot

variable (isWord find) in
/-- A pattern that matches from a word character on, and whose match no word goes over the end of. -/
structure Anchored : Prop where
  starts : ∀ s, startsWord isWord s = false → find s = none
  ends : ∀ s n replacement, find s = some (n, replacement) → ∃ m rest, s = m ++ rest ∧ m ≠ [] ∧ m.length = n ∧
    (startsWord isWord rest = true → context isWord false m = false)

variable (isWord find Keep) in
/-- A text and what comes of it, where `Keep` holds of the places without a match. -/
inductive Substituted : Bool → List Char → List Char → Prop
  | nil (afterWord : Bool) : Substituted afterWord [] []
  | keep {afterWord : Bool} {c : Char} {cs out : List Char} (h : afterWord = false → Keep (c :: cs))
      (rest : Substituted (isWord c) cs out) : Substituted afterWord (c :: cs) (c :: out)
  | hit {m cs replacement out : List Char} (h : find (m ++ cs) = some (m.length, replacement))
      (rest : Substituted false cs out) : Substituted false (m ++ cs) (replacement ++ out)

theorem substitute_skip (m : List Char) (n : ℕ) : substitute isWord find (n + m.length) afterWord (m ++ rest) =
    substitute isWord find n (context isWord afterWord m) rest := by
  induction m generalizing afterWord with
  | nil => rfl
  | cons c m ih => exact ih

theorem substitute_context (anchored : Anchored isWord find) (h : startsWord isWord s = true → afterWord = false) :
    substitute isWord find 0 afterWord s = substitute isWord find 0 false s := by
  cases s with
  | nil => rfl
  | cons c cs =>
    cases hword : isWord c with
    | true => rw [h hword]
    | false =>
      have hnone := anchored.starts (c :: cs) hword
      simp [substitute, hnone]

theorem substitute_of_none (hfind : find (c :: s) = none ∨ afterWord = true) : substitute isWord find 0 afterWord (c :: s) =
    (c :: (substitute isWord find 0 (isWord c) s).1, (substitute isWord find 0 (isWord c) s).2) := by
  have hnone : (if afterWord then none else find (c :: s)) = none := by
    obtain hfind | rfl := hfind
    · simp [hfind]
    · rfl
  simp [substitute, hnone]

theorem substitute_of_find (anchored : Anchored isWord find) {m replacement : List Char} (hne : m ≠ [])
    (hend : startsWord isWord rest = true → context isWord false m = false)
    (hfind : find (m ++ rest) = some (m.length, replacement)) : substitute isWord find 0 false (m ++ rest) =
      (replacement ++ (substitute isWord find 0 false rest).1, (substitute isWord find 0 false rest).2 + 1) := by
  obtain ⟨c, m, rfl⟩ := List.exists_cons_of_ne_nil hne
  have hskip : substitute isWord find m.length (isWord c) (m ++ rest) = substitute isWord find 0 false rest := by
    rw [← Nat.zero_add m.length, substitute_skip]
    exact substitute_context anchored hend
  rw [List.cons_append] at hfind ⊢
  simp [substitute, hfind, hskip]

theorem substituted (anchored : Anchored isWord find) (hnone : ∀ s, find s = none → Keep s) (afterWord : Bool) (s : List Char) :
    Substituted isWord find Keep afterWord s (substitute isWord find 0 afterWord s).1 := by
  induction hn : s.length using Nat.strongRecOn generalizing afterWord s with
  | ind n ih =>
    cases s with
    | nil => exact .nil afterWord
    | cons c cs =>
      have hkeep : find (c :: cs) = none ∨ afterWord = true →
          Substituted isWord find Keep afterWord (c :: cs) (substitute isWord find 0 afterWord (c :: cs)).1 := by
        intro hkept
        rw [substitute_of_none hkept]
        refine .keep ?_ (ih cs.length (by simp [← hn]) _ cs rfl)
        intro hfalse
        exact hnone _ (hkept.resolve_right (by simp [hfalse]))
      cases hfind : find (c :: cs) with
      | none => exact hkeep (.inl hfind)
      | some found =>
        cases afterWord with
        | true => exact hkeep (.inr rfl)
        | false =>
          obtain ⟨length, replacement⟩ := found
          obtain ⟨m, rest, hm, hne, rfl, hend⟩ := anchored.ends _ _ _ hfind
          rw [hm] at hfind hn ⊢
          rw [substitute_of_find anchored hne hend hfind]
          refine .hit hfind (ih rest.length ?_ false rest rfl)
          have hpos := List.length_pos_of_ne_nil hne
          rw [← hn, List.length_append]
          omega

variable (isWord) in
/-- A pattern, as the sequences of kinds of characters that it reads. -/
def Matches (family : List (Char → Bool) → Prop) (s : List Char) : Prop :=
  ∃ kinds, family kinds ∧ reads isWord kinds false s = true

variable (isWord) in
def Clean (family : List (Char → Bool) → Prop) : Bool → List Char → Prop
  | _, [] => True
  | afterWord, c :: cs => (afterWord = false → ¬Matches isWord family (c :: cs)) ∧ Clean family (isWord c) cs

variable {family : List (Char → Bool) → Prop}

theorem Clean.append_right {m : List Char} (h : Clean isWord family afterWord (m ++ rest)) :
    Clean isWord family (context isWord afterWord m) rest := by
  induction m generalizing afterWord with
  | nil => exact h
  | cons c m ih => exact ih h.2

theorem Clean.append {u : List Char} (h : Clean isWord family (context isWord afterWord u) rest)
    (hu : ∀ before c after, u = before ++ c :: after → ¬Matches isWord family (c :: (after ++ rest))) :
    Clean isWord family afterWord (u ++ rest) := by
  induction u generalizing afterWord with
  | nil => exact h
  | cons c u ih =>
    refine ⟨fun _ => hu [] c u rfl, ih h ?_⟩
    rintro before d after rfl
    exact hu (c :: before) d after rfl

theorem Clean.of_context (hword : ∀ s, Matches isWord family s → startsWord isWord s = true)
    (h : Clean isWord family afterWord s) (hs : startsWord isWord s = true → afterWord = false) :
    Clean isWord family false s := by
  cases s with
  | nil => trivial
  | cons c cs =>
    refine ⟨?_, h.2⟩
    intro _ hmatches
    exact h.1 (hs (hword _ hmatches)) hmatches

theorem substitute_of_clean (hfind : ∀ s, ¬Matches isWord family s → find s = none)
    (h : Clean isWord family afterWord s) : substitute isWord find 0 afterWord s = (s, 0) := by
  induction s generalizing afterWord with
  | nil => rfl
  | cons c cs ih =>
    have hnone : find (c :: cs) = none ∨ afterWord = true := by
      cases afterWord with
      | true => exact .inr rfl
      | false => exact .inl (hfind _ (h.1 rfl))
    rw [substitute_of_none hnone, ih h.2]

theorem eq_none_of_not_matches (hfind : ∀ n replacement, find s = some (n, replacement) →
      ∃ kinds, family kinds ∧ kinds.length = n ∧ reads isWord kinds false s = true) (h : ¬Matches isWord family s) :
    find s = none := by
  cases hfound : find s with
  | none => rfl
  | some found =>
    obtain ⟨kinds, hfamily, -, hreads⟩ := hfind found.1 found.2 hfound
    exact absurd ⟨kinds, hfamily, hreads⟩ h

theorem anchored_of_reads (hword : ∀ s, Matches isWord family s → startsWord isWord s = true)
    (hne : ∀ kinds, family kinds → kinds ≠ [])
    (hfind : ∀ s n replacement, find s = some (n, replacement) →
      ∃ kinds, family kinds ∧ kinds.length = n ∧ reads isWord kinds false s = true) : Anchored isWord find where
  starts s hs := by
    refine eq_none_of_not_matches (hfind s) fun hmatches => ?_
    rw [hword s hmatches] at hs
    cases hs
  ends s n replacement hfound := by
    obtain ⟨kinds, hfamily, rfl, hreads⟩ := hfind s n replacement hfound
    obtain ⟨m, rest, rfl, hkinds, hend⟩ := reads_eq_true hreads
    refine ⟨m, rest, rfl, ?_, hkinds.length_eq.symm, hend⟩
    rintro rfl
    exact hne kinds hfamily (List.forall₂_nil_right_iff.mp hkinds)

theorem Substituted.of_clean (anchored : Anchored isWord find)
    (hword : ∀ s, Matches isWord family s → startsWord isWord s = true)
    (h : Substituted isWord find Keep afterWord s out) (hclean : Clean isWord family afterWord s) :
    Substituted isWord find (fun s => ¬Matches isWord family s) afterWord s out := by
  induction h with
  | nil afterWord => exact .nil afterWord
  | keep hkeep rest ih => exact .keep hclean.1 (ih hclean.2)
  | @hit m cs replacement out hfind rest ih =>
    obtain ⟨m', rest', hm, -, hlength, hend⟩ := anchored.ends _ _ _ hfind
    obtain ⟨rfl, rfl⟩ := List.append_inj hm hlength.symm
    exact .hit hfind (ih (hclean.append_right.of_context hword hend))

variable (isWord) in
/-- A replacement keeps the start of the match, as far as the kinds can tell, and goes on with something that
none of them reads. -/
structure Keeps (kinds : List (Char → Bool)) (m replacement : List Char) : Prop where
  parts : ∃ kept kept' tail tail', m = kept ++ tail ∧ replacement = kept' ++ tail' ∧
    List.Forall₂ (fun c c' => isWord c = isWord c' ∧ ∀ kind ∈ kinds, kind c' = true → kind c = true) kept kept' ∧
    (kept = [] ∨ (tail ≠ [] ∧ startsWord isWord tail = false)) ∧ tail' ≠ [] ∧ startsWord isWord tail' = false ∧
    ∀ kinds', kinds' ≠ [] → kinds' <:+ kinds → ∀ b rest, reads isWord kinds' b (tail' ++ rest) = false

private theorem startsWord_append {tail : List Char} (h : tail ≠ []) :
    startsWord isWord (tail ++ rest) = startsWord isWord tail := by
  obtain ⟨c, tail, rfl⟩ := List.exists_cons_of_ne_nil h
  rfl

private theorem reads_of_kept {all : List (Char → Bool)} {kept kept' tail tail' : List Char}
    (hkept : List.Forall₂ (fun c c' => isWord c = isWord c' ∧ ∀ kind ∈ all, kind c' = true → kind c = true) kept kept')
    (htail : tail ≠ [] ∧ startsWord isWord tail = false) (htail' : tail' ≠ []) (hword : startsWord isWord tail' = false)
    (hstop : ∀ kinds', kinds' ≠ [] → kinds' <:+ all → ∀ b rest, reads isWord kinds' b (tail' ++ rest) = false)
    (hkinds : kinds <:+ all) (h : reads isWord kinds afterWord (kept' ++ (tail' ++ out)) = true) :
    reads isWord kinds afterWord (kept ++ (tail ++ rest)) = true := by
  induction hkept generalizing kinds afterWord with
  | nil =>
    cases kinds with
    | nil =>
      rw [reads_nil, List.nil_append, startsWord_append htail', hword] at h
      rw [reads_nil, List.nil_append, startsWord_append htail.1, htail.2]
      exact h
    | cons kind kinds =>
      have hfalse := hstop _ (List.cons_ne_nil _ _) hkinds afterWord out
      rw [List.nil_append, hfalse] at h
      cases h
  | @cons c c' kept kept' hc hrest ih =>
    cases kinds with
    | nil => simpa [hc.1] using h
    | cons kind kinds =>
      simp only [List.cons_append, reads_cons, Bool.and_eq_true] at h ⊢
      refine ⟨hc.2 kind (hkinds.mem List.mem_cons_self) h.1, ?_⟩
      rw [hc.1]
      exact ih ((List.suffix_cons kind kinds).trans hkinds) h.2

theorem Substituted.reads_of_reads {all : List (Char → Bool)} (h : Substituted isWord find Keep afterWord s out)
    (hkeeps : ∀ m rest replacement, find (m ++ rest) = some (m.length, replacement) → Keeps isWord all m replacement)
    (hkinds : kinds <:+ all) (hreads : reads isWord kinds afterWord out = true) :
    reads isWord kinds afterWord s = true := by
  induction h generalizing kinds with
  | nil afterWord => exact hreads
  | keep hkeep rest ih =>
    cases kinds with
    | nil => exact hreads
    | cons kind kinds =>
      rw [reads_cons, Bool.and_eq_true] at hreads ⊢
      exact ⟨hreads.1, ih ((List.suffix_cons kind kinds).trans hkinds) hreads.2⟩
  | @hit m cs replacement out hfind rest ih =>
    obtain ⟨kept, kept', tail, tail', rfl, rfl, hkept, htail, htail', hword, hstop⟩ := (hkeeps _ _ _ hfind).parts
    rw [List.append_assoc] at hreads ⊢
    obtain rfl | htail := htail
    · cases hkept
      cases kinds with
      | nil => simp [startsWord_append htail', hword] at hreads
      | cons kind kinds =>
        have hfalse := hstop _ (List.cons_ne_nil _ _) hkinds false out
        rw [List.nil_append, hfalse] at hreads
        cases hreads
    · exact reads_of_kept hkept htail htail' hword hstop hkinds hreads

theorem Substituted.clean (h : Substituted isWord find (fun s => ¬Matches isWord family s) afterWord s out)
    (hkeeps : ∀ m rest replacement, find (m ++ rest) = some (m.length, replacement) →
      ∀ kinds, family kinds → Keeps isWord kinds m replacement)
    (hreplacement : ∀ m rest replacement, find (m ++ rest) = some (m.length, replacement) →
      ∀ out, Clean isWord family false out → Clean isWord family false (replacement ++ out)) :
    Clean isWord family afterWord out := by
  induction h with
  | nil afterWord => trivial
  | @keep afterWord c cs out hkeep rest ih =>
    refine ⟨?_, ih⟩
    rintro rfl ⟨kinds, hfamily, hreads⟩
    refine hkeep rfl ⟨kinds, hfamily, ?_⟩
    exact (Substituted.keep hkeep rest).reads_of_reads (fun m rest replacement hfind => hkeeps m rest replacement hfind kinds hfamily)
      List.suffix_rfl hreads
  | hit hfind rest ih => exact hreplacement _ _ _ hfind _ ih

theorem Substituted.start {u : List Char} (h : Substituted isWord find Keep afterWord s (u ++ out)) :
    (∃ rest, s = u ++ rest) ∨ ∃ before after m rest replacement out', u = before ++ after ∧ after ≠ [] ∧
      s = before ++ (m ++ rest) ∧ context isWord afterWord before = false ∧
      find (m ++ rest) = some (m.length, replacement) ∧ after ++ out = replacement ++ out' := by
  induction u generalizing afterWord s with
  | nil => exact .inl ⟨s, rfl⟩
  | cons c u ih =>
    generalize hout : c :: u ++ out = result at h
    cases h with
    | nil => cases hout
    | keep hkeep hrest =>
      obtain ⟨rfl, rfl⟩ := List.cons.inj hout
      obtain ⟨rest, rfl⟩ | ⟨before, after, m, rest, replacement, out', rfl, hafter, rfl, hcontext, hfind, heq⟩ := ih hrest
      · exact .inl ⟨rest, rfl⟩
      · exact .inr ⟨c :: before, after, m, rest, replacement, out', rfl, hafter, rfl, hcontext, hfind, heq⟩
    | @hit m cs replacement out' hfind rest =>
      exact .inr ⟨[], c :: u, m, cs, replacement, out', rfl, List.cons_ne_nil _ _, rfl, rfl, hfind, hout⟩

end OpenMinion.TextSubstitutions
